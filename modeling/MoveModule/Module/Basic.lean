import MoveModule.Table.Entry

/-! Modules. A module is fifteen tables, most of which are pools that other tables
point into, together with what stands before and after the tables in its file. -/
namespace MoveModule

structure Module where
  magic : Block 4
  version : UInt32
  /-- The tables in the order in which they were found. It may name tables that are
  empty and leave out tables that are not. -/
  tableOrder : List TableKind
  moduleHandles : Array ModuleHandle
  structHandles : Array StructHandle
  functionHandles : Array FunctionHandle
  fieldHandles : Array FieldHandle
  friends : Array ModuleHandle
  structInstantiations : Array (Instantiation .structDefinitions)
  functionInstantiations : Array (Instantiation .functionHandles)
  fieldInstantiations : Array (Instantiation .fieldHandles)
  signatures : Array Signature
  identifiers : Array Identifier
  addresses : Array Address
  constants : Array Constant
  metadata : Array Metadata
  structDefinitions : Array StructDefinition
  functionDefinitions : Array FunctionDefinition
  /-- The handle that names the module itself. -/
  self : Index .moduleHandles

namespace Module

/-- What the file of every module starts with. -/
def magicBytes : Block 4 :=
  ⟨[0xA1, 0x1C, 0xEB, 0x0B], rfl⟩

/-- The versions of the format that are known. -/
def isSupported (version : UInt32) : Bool :=
  5 ≤ version && version ≤ 6

/-- A module without any entries. -/
def empty (version : UInt32) : Module where
  magic := magicBytes
  version := version
  tableOrder := []
  moduleHandles := #[]
  structHandles := #[]
  functionHandles := #[]
  fieldHandles := #[]
  friends := #[]
  structInstantiations := #[]
  functionInstantiations := #[]
  fieldInstantiations := #[]
  signatures := #[]
  identifiers := #[]
  addresses := #[]
  constants := #[]
  metadata := #[]
  structDefinitions := #[]
  functionDefinitions := #[]
  self := ⟨0⟩

/-- The entries of a table. -/
def entries (module : Module) : (kind : TableKind) → Array kind.Entry
  | .moduleHandles => module.moduleHandles
  | .structHandles => module.structHandles
  | .functionHandles => module.functionHandles
  | .functionInstantiations => module.functionInstantiations
  | .signatures => module.signatures
  | .identifiers => module.identifiers
  | .addresses => module.addresses
  | .constants => module.constants
  | .metadata => module.metadata
  | .structDefinitions => module.structDefinitions
  | .structInstantiations => module.structInstantiations
  | .functionDefinitions => module.functionDefinitions
  | .fieldHandles => module.fieldHandles
  | .fieldInstantiations => module.fieldInstantiations
  | .friends => module.friends

/-- The module with other entries in one table. -/
def withEntries (module : Module) : (kind : TableKind) → Array kind.Entry → Module
  | .moduleHandles, entries => { module with moduleHandles := entries }
  | .structHandles, entries => { module with structHandles := entries }
  | .functionHandles, entries => { module with functionHandles := entries }
  | .functionInstantiations, entries => { module with functionInstantiations := entries }
  | .signatures, entries => { module with signatures := entries }
  | .identifiers, entries => { module with identifiers := entries }
  | .addresses, entries => { module with addresses := entries }
  | .constants, entries => { module with constants := entries }
  | .metadata, entries => { module with metadata := entries }
  | .structDefinitions, entries => { module with structDefinitions := entries }
  | .structInstantiations, entries => { module with structInstantiations := entries }
  | .functionDefinitions, entries => { module with functionDefinitions := entries }
  | .fieldHandles, entries => { module with fieldHandles := entries }
  | .fieldInstantiations, entries => { module with fieldInstantiations := entries }
  | .friends, entries => { module with friends := entries }

/-- How many entries a table has. -/
def size (module : Module) (kind : TableKind) : Nat :=
  (module.entries kind).size

/-- The name that an index stands for. -/
def identifier? (module : Module) (index : Index .identifiers) : Option Identifier :=
  module.identifiers[index.position]?

/-- The handle of the module itself. -/
def selfHandle? (module : Module) : Option ModuleHandle :=
  module.moduleHandles[module.self.position]?

/-- The name of the module, if its handle leads to one. -/
def name? (module : Module) : Option Identifier := do
  module.identifier? (← module.selfHandle?).name

/-- The address of the module, if its handle leads to one. -/
def address? (module : Module) : Option Address := do
  module.addresses[(← module.selfHandle?).address.position]?

@[simp]
theorem magic_withEntries (module : Module) (kind : TableKind) (entries : Array kind.Entry) :
    (module.withEntries kind entries).magic = module.magic := by
  cases kind <;> rfl

@[simp]
theorem version_withEntries (module : Module) (kind : TableKind) (entries : Array kind.Entry) :
    (module.withEntries kind entries).version = module.version := by
  cases kind <;> rfl

@[simp]
theorem tableOrder_withEntries (module : Module) (kind : TableKind) (entries : Array kind.Entry) :
    (module.withEntries kind entries).tableOrder = module.tableOrder := by
  cases kind <;> rfl

@[simp]
theorem self_withEntries (module : Module) (kind : TableKind) (entries : Array kind.Entry) :
    (module.withEntries kind entries).self = module.self := by
  cases kind <;> rfl

theorem entries_withEntries_of_ne (module : Module) {kind other : TableKind}
    (entries : Array kind.Entry) (h : other ≠ kind) :
    (module.withEntries kind entries).entries other = module.entries other := by
  cases kind <;> cases other <;> first | rfl | exact absurd rfl h

/-- A module consists of its tables and of what stands before and after them. -/
theorem ext_entries {first second : Module} (hMagic : first.magic = second.magic)
    (hVersion : first.version = second.version) (hOrder : first.tableOrder = second.tableOrder)
    (hEntries : ∀ kind, first.entries kind = second.entries kind)
    (hSelf : first.self = second.self) : first = second := by
  cases first
  cases second
  simp only [mk.injEq]
  exact ⟨hMagic, hVersion, hOrder, hEntries .moduleHandles, hEntries .structHandles,
    hEntries .functionHandles, hEntries .fieldHandles, hEntries .friends,
    hEntries .structInstantiations, hEntries .functionInstantiations,
    hEntries .fieldInstantiations, hEntries .signatures, hEntries .identifiers,
    hEntries .addresses, hEntries .constants, hEntries .metadata, hEntries .structDefinitions,
    hEntries .functionDefinitions, hSelf⟩

end Module

end MoveModule
