import MoveModule.Module.Verify
import MoveModule.Proofs.Constant.Value

/-! When a module is sound in itself, said without the order in which it is checked. Every
index leads to an entry of the table that it is for, no name occurs twice, and constants
are values of their types. -/
namespace MoveModule

namespace SignatureToken

/-- All structs in the type have handles, and those that are given arguments get as many
as they take. -/
def StructsIn (token : SignatureToken) (handles : Array StructHandle) : Prop :=
  (∀ handle, struct handle ∈ token.nodes → handle.position < handles.size) ∧
    ∀ handle arguments, instantiation handle arguments ∈ token.nodes →
      ∃ declared, handles[handle.position]? = some declared ∧
        arguments.length = declared.typeParameters.length

/-- All type parameters in the type are among the first `count`. -/
def ParametersBelow (token : SignatureToken) (count : Nat) : Prop :=
  ∀ index, typeParameter index ∈ token.nodes → index.position < count

end SignatureToken

namespace Module

/-- How many entries a pool has. The pools of one struct or function are no tables. -/
def poolSize (module : Module) : Pool → Nat
  | .moduleHandles => module.moduleHandles.size
  | .structHandles => module.structHandles.size
  | .functionHandles => module.functionHandles.size
  | .fieldHandles => module.fieldHandles.size
  | .structInstantiations => module.structInstantiations.size
  | .functionInstantiations => module.functionInstantiations.size
  | .fieldInstantiations => module.fieldInstantiations.size
  | .identifiers => module.identifiers.size
  | .addresses => module.addresses.size
  | .constants => module.constants.size
  | .signatures => module.signatures.size
  | .structDefinitions => module.structDefinitions.size
  | .fields | .instructions | .locals | .typeParameters => 0

/-- The index leads to an entry of the table that it is for. -/
def Resolves (module : Module) {pool : Pool} (index : Index pool) : Prop :=
  index.position < module.poolSize pool

/-- The index leads to a signature whose type parameters are among the first `count`. -/
def ParametersBelow (module : Module) (index : Index .signatures) (count : Nat) : Prop :=
  ∃ tokens, module.signatures[index.position]? = some tokens ∧
    ∀ token ∈ tokens, token.ParametersBelow count

end Module

def ModuleHandle.SoundIn (handle : ModuleHandle) (module : Module) : Prop :=
  module.Resolves handle.address ∧ module.Resolves handle.name

def StructHandle.SoundIn (handle : StructHandle) (module : Module) : Prop :=
  module.Resolves handle.module ∧ module.Resolves handle.name

def FunctionHandle.SoundIn (handle : FunctionHandle) (module : Module) : Prop :=
  module.Resolves handle.module ∧ module.Resolves handle.name ∧
    module.ParametersBelow handle.parameters handle.typeParameters.length ∧
    module.ParametersBelow handle.results handle.typeParameters.length

/-- The name and the type of the field belong to the module, and the type to a struct with
so many type parameters. -/
def FieldDefinition.SoundIn (field : FieldDefinition) (module : Module) (count : Nat) : Prop :=
  module.Resolves field.name ∧ field.type.StructsIn module.structHandles ∧
    field.type.ParametersBelow count

def StructDefinition.SoundIn (definition : StructDefinition) (module : Module) : Prop :=
  ∃ handle, module.structHandles[definition.handle.position]? = some handle ∧
    ∀ field ∈ definition.fields.toList, field.SoundIn module handle.typeParameters.length

def Instantiation.SoundIn {pool : Pool} (instantiation : Instantiation pool) (module : Module) :
    Prop :=
  module.Resolves instantiation.generic ∧ module.Resolves instantiation.arguments

/-- The owner is there and has the field. -/
def FieldHandle.SoundIn (handle : FieldHandle) (module : Module) : Prop :=
  ∃ owner, module.structDefinitions[handle.owner.position]? = some owner ∧
    handle.field.position < owner.fields.toList.length

/-- A branch stays inside the code, a local is one of the function, and an index leads to
an entry. The type of the items of a vector belongs to the function. -/
def OperandKind.SoundIn (module : Module) (frame : Verify.Frame) :
    (kind : OperandKind) → kind.Value → Prop
  | .target, (place : Index .instructions) => place.position < frame.instructions
  | .slot, (place : UInt8) => place.toNat < frame.locals
  | .index .signatures, (type : Index .signatures) =>
      module.ParametersBelow type frame.typeParameters
  | .items, ((type, _) : Index .signatures × UInt64) =>
      module.ParametersBelow type frame.typeParameters
  | .index _, entry => module.Resolves entry
  | .nothing, _ => True
  | .integer _, _ => True

/-- The body belongs to the module and to a function with the given handle. -/
def Code.SoundIn (code : Code) (module : Module) (handle : FunctionHandle) : Prop :=
  ∃ parameters locals, module.signatures[handle.parameters.position]? = some parameters ∧
    module.signatures[code.locals.position]? = some locals ∧
    (∀ token ∈ locals, token.ParametersBelow handle.typeParameters.length) ∧
    ∀ instruction ∈ code.instructions, instruction.opcode.operand.SoundIn module
      ⟨code.instructions.length, parameters.length + locals.length, handle.typeParameters.length⟩
      instruction.operand

def FunctionDefinition.SoundIn (definition : FunctionDefinition) (module : Module) : Prop :=
  ∃ handle, module.functionHandles[definition.handle.position]? = some handle ∧
    (∀ index ∈ definition.acquires, module.Resolves index) ∧
    ∀ code ∈ definition.code, code.SoundIn module handle

/-- The module is sound in itself. -/
structure Module.Sound (module : Module) : Prop where
  magic : module.magic = magicBytes
  version : module.version = 5 ∨ module.version = 6
  sizes : ∀ kind, module.size kind ≤ 65536
  identifiers : module.identifiers.toList.Nodup
  constants : ∀ constant ∈ module.constants.toList,
    ∃ value, ConstantValue.Encodes constant.type value constant.value
  self : module.Resolves module.self
  moduleHandles : ∀ handle ∈ module.moduleHandles.toList, handle.SoundIn module
  friends : ∀ handle ∈ module.friends.toList, handle.SoundIn module
  structHandles : ∀ handle ∈ module.structHandles.toList, handle.SoundIn module
  functionHandles : ∀ handle ∈ module.functionHandles.toList, handle.SoundIn module
  signatures : ∀ signature ∈ module.signatures.toList, ∀ token ∈ signature,
    token.StructsIn module.structHandles
  structDefinitions : ∀ definition ∈ module.structDefinitions.toList, definition.SoundIn module
  structInstantiations : ∀ instantiation ∈ module.structInstantiations.toList,
    instantiation.SoundIn module
  functionInstantiations : ∀ instantiation ∈ module.functionInstantiations.toList,
    instantiation.SoundIn module
  fieldInstantiations : ∀ instantiation ∈ module.fieldInstantiations.toList,
    instantiation.SoundIn module
  fieldHandles : ∀ handle ∈ module.fieldHandles.toList, handle.SoundIn module
  functionDefinitions : ∀ definition ∈ module.functionDefinitions.toList,
    definition.SoundIn module

/-- A module with nothing but its own name and address. -/
def bareModule : Module :=
  { Module.empty 6 with
    tableOrder := [.identifiers, .moduleHandles, .addresses]
    moduleHandles := #[⟨⟨0⟩, ⟨0⟩⟩]
    identifiers := #[⟨"M", rfl⟩]
    addresses := #[⟨List.replicate 32 0, rfl⟩] }

end MoveModule
