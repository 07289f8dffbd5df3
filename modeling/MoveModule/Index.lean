import MoveModule.Binary.Codec
import MoveModule.Json.Form

/-! Places in the pools of a module. An index is a number of sixteen bits that
names one entry of one pool. The pool is part of its type, so an index into one
pool cannot be used for another. -/
namespace MoveModule

/-- What an index points into. -/
inductive Pool
  | moduleHandles
  | structHandles
  | functionHandles
  | fieldHandles
  | structInstantiations
  | functionInstantiations
  | fieldInstantiations
  | identifiers
  | addresses
  | constants
  | signatures
  | structDefinitions
  /-- The fields of one struct definition. -/
  | fields
  /-- The instructions of one function. -/
  | instructions
  /-- The parameters and locals of one function. -/
  | locals
  /-- The type parameters of one generic declaration. -/
  | typeParameters
deriving DecidableEq, Repr

namespace Pool

def all : List Pool :=
  [moduleHandles, structHandles, functionHandles, fieldHandles, structInstantiations,
   functionInstantiations, fieldInstantiations, identifiers, addresses, constants, signatures,
   structDefinitions, fields, instructions, locals, typeParameters]

/-- What one entry of the pool is called in messages. -/
def entryName : Pool → String
  | moduleHandles => "module handle"
  | structHandles => "struct handle"
  | functionHandles => "function handle"
  | fieldHandles => "field handle"
  | structInstantiations => "struct instantiation"
  | functionInstantiations => "function instantiation"
  | fieldInstantiations => "field instantiation"
  | identifiers => "identifier"
  | addresses => "address identifier"
  | constants => "constant"
  | signatures => "signature"
  | structDefinitions => "struct definition"
  | fields => "field"
  | instructions => "code offset"
  | locals => "local"
  | typeParameters => "type parameter"

/-- The name of the pool in documents. -/
def name : Pool → String
  | moduleHandles => "ModuleHandle"
  | structHandles => "StructHandle"
  | functionHandles => "FunctionHandle"
  | fieldHandles => "FieldHandle"
  | structInstantiations => "StructDefInstantiation"
  | functionInstantiations => "FunctionInstantiation"
  | fieldInstantiations => "FieldInstantiation"
  | identifiers => "Identifier"
  | addresses => "AddressIdentifier"
  | constants => "ConstantPool"
  | signatures => "Signature"
  | structDefinitions => "StructDefinition"
  | fields => "MemberCount"
  | instructions => "CodeOffset"
  | locals => "LocalPool"
  | typeParameters => "TypeParameter"

def form : Json.Form Pool :=
  .name name fun text => all.find? fun pool => pool.name == text

end Pool

structure Index (pool : Pool) where
  value : UInt16
deriving DecidableEq, Repr

namespace Index

variable {pool : Pool}

/-- The place in the pool. -/
def position (index : Index pool) : Nat :=
  index.value.toNat

def codec : Binary.Codec (Index pool) :=
  Binary.Codec.index.map Index.mk Index.value

def form : Json.Form (Index pool) :=
  Json.Form.uint16.map Index.mk Index.value

end Index

end MoveModule
