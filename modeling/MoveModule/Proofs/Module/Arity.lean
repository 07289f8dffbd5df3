import MoveModule.Proofs.Module.Verify

/-! How many type arguments generic structs get. The checks count them where a type gives a
struct its arguments. They do not where a type names a struct without arguments, nor in the
table of struct instantiations, so that what is left to ask for is said here. -/
namespace MoveModule.Module

/-- The types in the signatures and of the fields. -/
def types (module : Module) : List SignatureToken :=
  module.signatures.toList.flatten ++
    module.structDefinitions.toList.flatMap fun definition =>
      definition.fields.toList.map FieldDefinition.type

/-- How many type parameters the handle of a struct declares. -/
def arity? (module : Module) (handle : Index .structHandles) : Option Nat :=
  module.structHandles[handle.position]?.map fun declared => declared.typeParameters.length

/-- How many type parameters a defined struct has by its handle. -/
def definedArity? (module : Module) (definition : Index .structDefinitions) : Option Nat := do
  module.arity? (← module.structDefinitions[definition.position]?).handle

/-- How many types a signature consists of. -/
def typeCount? (module : Module) (signature : Index .signatures) : Option Nat :=
  module.signatures[signature.position]?.map List.length

/-- All structs get as many type arguments as their handles declare, none included. -/
structure GenericsApplied (module : Module) : Prop where
  plain : ∀ type ∈ module.types, ∀ handle, .struct handle ∈ type.nodes →
    module.arity? handle = some 0
  applied : ∀ type ∈ module.types, ∀ handle arguments,
    .instantiation handle arguments ∈ type.nodes → module.arity? handle = some arguments.length
  definitions : ∀ instantiation ∈ module.structInstantiations.toList,
    ∃ count, module.definedArity? instantiation.generic = some count ∧
      module.typeCount? instantiation.arguments = some count

variable {module : Module}

/-- The types of a module are those in the pool of signatures and those of fields. -/
theorem mem_types {type : SignatureToken} :
    type ∈ module.types ↔ (∃ signature ∈ module.signatures.toList, type ∈ signature) ∨
      ∃ definition ∈ module.structDefinitions.toList, ∃ field ∈ definition.fields.toList,
        field.type = type := by
  simp only [types, List.mem_append, List.mem_flatten, List.mem_flatMap, List.mem_map]

/-- A struct handle that is there says how many type parameters it takes. -/
theorem exists_arity?_eq {handle : Index .structHandles} (h : module.Resolves handle) :
    ∃ count, module.arity? handle = some count :=
  ⟨_, Option.map_eq_some_iff.mpr ⟨_, Array.getElem?_eq_getElem h, rfl⟩⟩

theorem exists_typeCount?_eq {signature : Index .signatures} (h : module.Resolves signature) :
    ∃ count, module.typeCount? signature = some count :=
  ⟨_, Option.map_eq_some_iff.mpr ⟨_, Array.getElem?_eq_getElem h, rfl⟩⟩

section Sound

variable (hSound : module.Sound)

include hSound

/-- Every type of the module has been looked at, wherever it stands. -/
theorem Sound.structsIn {type : SignatureToken} (hType : type ∈ module.types) :
    type.StructsIn module.structHandles := by
  rcases mem_types.mp hType with
    ⟨signature, hSignature, hMember⟩ | ⟨definition, hDefinition, field, hField, rfl⟩
  · exact hSound.signatures signature hSignature type hMember
  · obtain ⟨_, -, hFields⟩ := hSound.structDefinitions definition hDefinition
    exact (hFields field hField).2.1

/-- A struct with type arguments gets as many as its handle declares, at any depth. -/
theorem Sound.arity?_eq {type : SignatureToken} (hType : type ∈ module.types)
    {handle : Index .structHandles} {arguments : List SignatureToken}
    (hNode : .instantiation handle arguments ∈ type.nodes) :
    module.arity? handle = some arguments.length := by
  obtain ⟨declared, hDeclared, hCount⟩ := (hSound.structsIn hType).2 handle arguments hNode
  exact Option.map_eq_some_iff.mpr ⟨declared, hDeclared, hCount.symm⟩

/-- The definition of a struct leads to its handle, which says the same of the struct that is
defined. -/
theorem Sound.exists_definedArity?_eq {index : Index .structDefinitions}
    (h : module.Resolves index) : ∃ count, module.definedArity? index = some count := by
  obtain ⟨definition, hDefinition, declared, hDeclared, -⟩ :=
    exists_getElem?_eq hSound.structDefinitions h
  refine ⟨declared.typeParameters.length, Option.bind_eq_some_iff.mpr ⟨_, hDefinition, ?_⟩⟩
  exact Option.map_eq_some_iff.mpr ⟨declared, hDeclared, rfl⟩

end Sound

/-- In an accepted module all type arguments inside of types have been counted. What the
module still owes to generic structs is that no type names one without arguments and that the
instantiations of structs have as many arguments as the structs take. -/
theorem genericsApplied_iff (h : module.verify = .ok ()) :
    (∀ type ∈ module.types, ∀ handle arguments, .instantiation handle arguments ∈ type.nodes →
      module.arity? handle = some arguments.length) ∧
    (module.GenericsApplied ↔
      (∀ type ∈ module.types, ∀ handle, .struct handle ∈ type.nodes →
        ∀ arity ∈ module.arity? handle, arity = 0) ∧
      ∀ instantiation ∈ module.structInstantiations.toList,
        ∀ arity ∈ module.definedArity? instantiation.generic,
          ∀ count ∈ module.typeCount? instantiation.arguments, count = arity) := by
  have hSound := sound_of_verify h
  have hApplied : ∀ type ∈ module.types, ∀ handle arguments,
      .instantiation handle arguments ∈ type.nodes →
        module.arity? handle = some arguments.length :=
    fun type hType handle arguments hNode => hSound.arity?_eq hType hNode
  refine ⟨hApplied, ?_, ?_⟩
  · intro hGenerics
    constructor
    · intro type hType handle hNode arity hArity
      have hNone := hGenerics.plain type hType handle hNode
      exact Option.some.inj (hArity.symm.trans hNone)
    · intro instantiation hInstantiation arity hArity count hCount
      obtain ⟨same, hDefined, hGiven⟩ := hGenerics.definitions instantiation hInstantiation
      have hLeft := Option.some.inj (hArity.symm.trans hDefined)
      have hRight := Option.some.inj (hCount.symm.trans hGiven)
      exact hRight.trans hLeft.symm
  · intro hOwed
    obtain ⟨hPlain, hDefinitions⟩ := hOwed
    refine ⟨?_, hApplied, ?_⟩
    · intro type hType handle hNode
      obtain ⟨arity, hArity⟩ := exists_arity?_eq ((hSound.structsIn hType).1 handle hNode)
      rw [hArity, hPlain type hType handle hNode arity hArity]
    · intro instantiation hInstantiation
      obtain ⟨hGeneric, hArguments⟩ := hSound.structInstantiations instantiation hInstantiation
      obtain ⟨arity, hArity⟩ := hSound.exists_definedArity?_eq hGeneric
      obtain ⟨count, hCount⟩ := exists_typeCount?_eq hArguments
      have hSame := hDefinitions instantiation hInstantiation arity hArity count hCount
      exact ⟨arity, hArity, hSame ▸ hCount⟩

/-- A module that names a generic struct without type arguments, once in a signature and once
as an instantiation with an empty signature. -/
def unappliedModule : Module :=
  { bareModule with
    structHandles := #[⟨⟨0⟩, ⟨0⟩, ⟨0⟩, [⟨⟨0⟩, false⟩]⟩]
    structInstantiations := #[⟨⟨0⟩, ⟨1⟩⟩]
    signatures := #[[.struct ⟨0⟩], []]
    structDefinitions := #[⟨⟨0⟩, .native⟩] }

/-- The module is accepted although its struct takes one argument in both places. -/
theorem genericsApplied_iff_unapplied :
    unappliedModule.verify = .ok () ∧
      .struct ⟨0⟩ ∈ unappliedModule.types ∧ unappliedModule.arity? ⟨0⟩ = some 1 ∧
      unappliedModule.definedArity? ⟨0⟩ = some 1 ∧ unappliedModule.typeCount? ⟨1⟩ = some 0 ∧
      ¬ unappliedModule.GenericsApplied := by
  have hSignatures : Verify.signatures unappliedModule = .ok () := by
    rw [Verify.signatures_eq_ok]
    simp [unappliedModule, SignatureToken.StructsIn, SignatureToken.nodes, Index.position]
  have hVerify : unappliedModule.verify = .ok () :=
    verify_eq_ok.mpr ⟨rfl, rfl, rfl, rfl, rfl, rfl, rfl, rfl, hSignatures, rfl, rfl, rfl, rfl⟩
  have hType : .struct ⟨0⟩ ∈ unappliedModule.types := List.mem_singleton.mpr rfl
  have hNode : .struct ⟨0⟩ ∈ (SignatureToken.struct ⟨0⟩).nodes := List.mem_singleton.mpr rfl
  refine ⟨hVerify, hType, rfl, rfl, rfl, ?_⟩
  intro hGenerics
  obtain ⟨hPlain, -⟩ := (genericsApplied_iff hVerify).2.mp hGenerics
  exact absurd (hPlain _ hType ⟨0⟩ hNode 1 rfl) Nat.one_ne_zero

end MoveModule.Module
