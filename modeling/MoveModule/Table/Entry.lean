import MoveModule.Constant
import MoveModule.Identifier
import MoveModule.Table.Definition
import MoveModule.Table.Kind

/-! What the tables hold. The kind of a table fixes the type of its entries, and
with it how they are written. -/
namespace MoveModule

open Binary

/-- A key and a value that the machine does not look at. -/
structure Metadata where
  key : List UInt8
  value : List UInt8
deriving DecidableEq, Repr

namespace Metadata

def codec : Codec Metadata :=
  (Codec.byteString.pair Codec.byteString).map
    (fun (key, value) => ⟨key, value⟩) (fun metadata => (metadata.key, metadata.value))

def form : Json.Form Metadata :=
  ((Json.Fields.required "key" Json.Form.hex).and
    (Json.Fields.required "value" Json.Form.hex)).form.map
    (fun (key, value) => ⟨key, value⟩) (fun metadata => (metadata.key, metadata.value))

end Metadata

namespace TableKind

/-- The entries of a table. -/
@[reducible]
def Entry : TableKind → Type
  | moduleHandles => ModuleHandle
  | structHandles => StructHandle
  | functionHandles => FunctionHandle
  | functionInstantiations => Instantiation .functionHandles
  | signatures => Signature
  | identifiers => Identifier
  | addresses => Address
  | constants => Constant
  | metadata => Metadata
  | structDefinitions => StructDefinition
  | structInstantiations => Instantiation .structDefinitions
  | functionDefinitions => FunctionDefinition
  | fieldHandles => FieldHandle
  | fieldInstantiations => Instantiation .fieldHandles
  | friends => ModuleHandle

/-- How one entry is written. -/
def entryCodec : (kind : TableKind) → Codec kind.Entry
  | moduleHandles => ModuleHandle.codec
  | structHandles => StructHandle.codec
  | functionHandles => FunctionHandle.codec
  | functionInstantiations => Instantiation.codec
  | signatures => Signature.codec
  | identifiers => Identifier.codec
  | addresses => Address.codec
  | constants => Constant.codec
  | metadata => Metadata.codec
  | structDefinitions => StructDefinition.codec
  | structInstantiations => Instantiation.codec
  | functionDefinitions => FunctionDefinition.codec
  | fieldHandles => FieldHandle.codec
  | fieldInstantiations => Instantiation.codec
  | friends => ModuleHandle.codec

/-- One entry as a document. -/
def entryForm : (kind : TableKind) → Json.Form kind.Entry
  | moduleHandles => ModuleHandle.form
  | structHandles => StructHandle.form
  | functionHandles => FunctionHandle.form
  | functionInstantiations => Instantiation.form
  | signatures => Signature.form
  | identifiers => Identifier.form
  | addresses => Address.form
  | constants => Constant.form
  | metadata => Metadata.form
  | structDefinitions => StructDefinition.form
  | structInstantiations => Instantiation.form
  | functionDefinitions => FunctionDefinition.form
  | fieldHandles => FieldHandle.form
  | fieldInstantiations => Instantiation.form
  | friends => ModuleHandle.form

end TableKind

end MoveModule
