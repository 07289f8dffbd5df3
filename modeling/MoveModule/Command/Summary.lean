import MoveModule.Command.Style
import MoveModule.Module.Layout
import MoveModule.Sha256
import MoveModule.Text.Column

/-! What is shown of a module and of its constants. -/
namespace MoveModule.Command

/-- How wide the labels of a summary are. -/
def labelWidth : Nat := 14

/-- A line with a label and a value. -/
def labelled (label value : String) : List Span :=
  [.colored .white (Text.atLeft labelWidth label), .line value]

def heading (text : String) : List Span :=
  [.strong none text, .line ""]

/-- The name that an index stands for, or a sign that it stands for none. -/
def nameText (module : Module) (index : Index .identifiers) : String :=
  match module.identifier? index with
  | some name => name.text
  | none => "?"

/-- The name of a struct definition. -/
def structName (module : Module) (definition : StructDefinition) : String :=
  match module.structHandles[definition.handle.position]? with
  | some handle => nameText module handle.name
  | none => "?"

/-- The name of a function definition. -/
def functionName (module : Module) (definition : FunctionDefinition) : String :=
  match module.functionHandles[definition.handle.position]? with
  | some handle => nameText module handle.name
  | none => "?"

def tableLine (module : Module) (entry : TableEntry) : Span :=
  let offset := Text.atRight 6 (toString entry.offset)
  let length := Text.atRight 6 (toString entry.length)
  let count := Text.atRight 4 (toString (module.size entry.kind))
  .line ("  " ++ Text.atLeft 24 entry.kind.display ++ s!" offset {offset}  length {length}  " ++
    s!"entries {count}")

def structLine (module : Module) (definition : StructDefinition) : List Span :=
  let fields := definition.fields.toList.length
  [.colored .cyan "  struct ", .line s!"{structName module definition} ({fields} fields)"]

def functionLine (module : Module) (definition : FunctionDefinition) : List Span :=
  let mark := if definition.isNative then " (native)" else ""
  [.colored .cyan "  fun ", .line (functionName module definition ++ mark)]

/-- A summary of the module that a file holds. -/
def summary (module : Module) (bytes : List UInt8) : List Span :=
  let name := match module.name? with
    | some name => name.text
    | none => "<unnamed>"
  let address := match module.address? with
    | some address => address.display
    | none => "<none>"
  labelled "Module" name ++
  labelled "Address" address ++
  labelled "Version" (toString module.version) ++
  labelled "Size" s!"{bytes.length} bytes" ++
  labelled "SHA-256" (Text.Hex.encode (Sha256.digest bytes)) ++
  [.line ""] ++
  heading "Tables" ++
  module.layout.map (tableLine module) ++
  [.line ""] ++
  heading "Definitions" ++
  module.structDefinitions.toList.flatMap (structLine module) ++
  module.functionDefinitions.toList.flatMap (functionLine module)

/-- One constant of a list. The value follows its bytes if they have one. -/
def constantLine (constant : Constant) (index : Nat) : List Span :=
  let value := match constant.decodeValue with
    | .ok value => " " ++ value.display
    | .error _ => ""
  [.plain (Text.atRight 3 (toString index) ++ "  "),
   .colored .cyan (Text.atLeft 12 constant.type.display),
   .line (" " ++ Text.atLeft 32 (Text.Hex.encode constant.value) ++ value)]

/-- All constants with their places. -/
def constantList (constants : Array Constant) : List Span :=
  constants.toList.zipIdx.flatMap fun (constant, index) => constantLine constant index

end MoveModule.Command
