import MoveModule.Main
import MoveModule.Proofs.Binary.Read
import MoveModule.Proofs.Binary.Exact
import MoveModule.Proofs.Signature
import MoveModule.Proofs.Constant.Type
import MoveModule.Proofs.Instruction
import MoveModule.Proofs.Table
import MoveModule.Proofs.Module.Prefix
import MoveModule.Proofs.Module.Arity
import MoveModule.Proofs.Module.TypeArguments
import MoveModule.Proofs.Template.Update
import MoveModule.Proofs.Template.Undo
import MoveModule.Proofs.Template.Frame
import MoveModule.Proofs.Module.Version
import MoveModule.Proofs.Command.Roundtrip
import MoveModule.Proofs.Json.Parser
import MoveModule.Proofs.Json.Form
import MoveModule.Proofs.Text.Hex
import MoveModule.Proofs.Table.Json
import MoveModule.Proofs.Module.Json
import MoveModule.Proofs.Command.Directory
import MoveModule.Proofs.Template.Edit
import MoveModule.Proofs.Command.Apply
import MoveModule.Proofs.Command.Effect
import MoveModule.Proofs.Command.Document
import MoveModule.Proofs.Constant.Encoding
import MoveModule.Proofs.Module.Replace
import MoveModule.Proofs.Template.Commute
import MoveModule.Proofs.Command.Obstacle
import MoveModule.Proofs.Signature.Encoding
import MoveModule.Proofs.Signature.Preorder
import MoveModule.Proofs.Constant.Token
import MoveModule.Proofs.Instruction.Stream
import MoveModule.Proofs.Constant.TypeTag
import MoveModule.Proofs.Constant.Display
import MoveModule.Proofs.Command.Summary
import MoveModule.Proofs.Module.Truthful
import MoveModule.Proofs.Module.Layout
import MoveModule.Proofs.Binary.Operation
import MoveModule.Proofs.Binary.Count
import MoveModule.Proofs.Module.Progress
