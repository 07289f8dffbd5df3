import MoveModule.Json.Form

/-! The kinds of tables that a module may have, each with the byte that stands for
it in the directory. -/
namespace MoveModule

inductive TableKind
  | moduleHandles
  | structHandles
  | functionHandles
  | functionInstantiations
  | signatures
  | identifiers
  | addresses
  | constants
  | metadata
  | structDefinitions
  | structInstantiations
  | functionDefinitions
  | fieldHandles
  | fieldInstantiations
  | friends
deriving DecidableEq, Repr

namespace TableKind

/-- All kinds in the order in which tables are written that have no recorded place. -/
def canonicalOrder : List TableKind :=
  [moduleHandles, structHandles, functionHandles, functionInstantiations, signatures, identifiers,
   addresses, constants, metadata, structDefinitions, structInstantiations, functionDefinitions,
   fieldHandles, fieldInstantiations, friends]

def byte : TableKind → UInt8
  | moduleHandles => 0x01
  | structHandles => 0x02
  | functionHandles => 0x03
  | functionInstantiations => 0x04
  | signatures => 0x05
  | constants => 0x06
  | identifiers => 0x07
  | addresses => 0x08
  | structDefinitions => 0x0A
  | structInstantiations => 0x0B
  | functionDefinitions => 0x0C
  | fieldHandles => 0x0D
  | fieldInstantiations => 0x0E
  | friends => 0x0F
  | metadata => 0x10

def ofByte? (byte : UInt8) : Option TableKind :=
  canonicalOrder.find? fun kind => kind.byte == byte

/-- The name of a table in messages. -/
def display : TableKind → String
  | moduleHandles => "module handles"
  | structHandles => "struct handles"
  | functionHandles => "function handles"
  | functionInstantiations => "function instantiations"
  | signatures => "signatures"
  | constants => "constant pool"
  | identifiers => "identifiers"
  | addresses => "address identifiers"
  | structDefinitions => "struct definitions"
  | structInstantiations => "struct instantiations"
  | functionDefinitions => "function definitions"
  | fieldHandles => "field handles"
  | fieldInstantiations => "field instantiations"
  | friends => "friend declarations"
  | metadata => "metadata"

/-- The name of a table in documents. -/
def name : TableKind → String
  | moduleHandles => "ModuleHandles"
  | structHandles => "StructHandles"
  | functionHandles => "FunctionHandles"
  | functionInstantiations => "FunctionInstantiations"
  | signatures => "Signatures"
  | constants => "ConstantPool"
  | identifiers => "Identifiers"
  | addresses => "AddressIdentifiers"
  | structDefinitions => "StructDefinitions"
  | structInstantiations => "StructDefInstantiations"
  | functionDefinitions => "FunctionDefinitions"
  | fieldHandles => "FieldHandles"
  | fieldInstantiations => "FieldInstantiations"
  | friends => "FriendDecls"
  | metadata => "Metadata"

def form : Json.Form TableKind :=
  .name name fun text => canonicalOrder.find? fun kind => kind.name == text

theorem mem_canonicalOrder (kind : TableKind) : kind ∈ canonicalOrder := by
  cases kind <;> decide

theorem ofByte?_byte (kind : TableKind) : ofByte? kind.byte = some kind := by
  cases kind <;> rfl

theorem byte_of_ofByte? {source : UInt8} {kind : TableKind} (h : ofByte? source = some kind) :
    kind.byte = source := by
  simpa using List.find?_some h

end TableKind

end MoveModule
