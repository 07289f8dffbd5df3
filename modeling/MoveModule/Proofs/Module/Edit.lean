import MoveModule.Module.Edit
import MoveModule.Proofs.Module.Decode
import MoveModule.Proofs.Module.Verify

/-! What a change of names or of a constant keeps. The other tables look at these two pools
only for how many entries they have. So a sound module stays sound as long as its names stay
different and its constants stay values, and a reader takes it as before. -/
namespace MoveModule

/-- An entry of an array that was changed in one place is an old one or the new one. -/
theorem mem_or_eq_of_mem_modify {α : Type} {entries : Array α} {place : Nat} {change : α → α}
    {entry : α} (h : entry ∈ entries.modify place change) :
    entry ∈ entries ∨ ∃ old, entries[place]? = some old ∧ entry = change old := by
  obtain ⟨index, hIndex⟩ := Array.mem_iff_getElem?.mp h
  rw [Array.getElem?_modify] at hIndex
  split at hIndex
  case isTrue hPlace =>
    obtain ⟨old, hOld, hChanged⟩ := Option.map_eq_some_iff.mp hIndex
    exact .inr ⟨old, hPlace ▸ hOld, hChanged.symm⟩
  case isFalse => exact .inl (Array.mem_of_getElem? hIndex)

namespace Module

section Spec

variable {module result : Module} {place : Nat}

/-- Names are changed if the new ones are valid and no two entries become the same. Nothing but the
table of identifiers is touched. -/
theorem rename_eq_ok {pairs : List (String × String)} :
    module.rename pairs = .ok result ↔ ∃ changes, Renaming.ofPairs pairs = .ok changes ∧
      (module.identifiers.map changes.apply).toList.Nodup ∧
      result = { module with identifiers := module.identifiers.map changes.apply } := by
  simp only [rename, Except.bind_eq_ok]
  refine exists_congr fun changes => and_congr_right fun _ => ?_
  have hNone := @firstRepeat?_eq_none _ _ [] (module.identifiers.map changes.apply).toList
  cases hRepeat : firstRepeat? [] (module.identifiers.map changes.apply).toList with
  | none => simp_all [eq_comm]
  | some name => simp_all

/-- The place of a constant is the first one where it stands. -/
theorem findConstant?_eq_some {type : ConstantType} {value : List UInt8} :
    module.findConstant? type value = some place ↔
      module.constants[place]? = some ⟨type, value⟩ ∧
        ∀ earlier < place, module.constants[earlier]? ≠ some ⟨type, value⟩ := by
  have hSame (constant : Constant) :
      (constant.type == type && constant.value == value) = true ↔ constant = ⟨type, value⟩ := by
    obtain ⟨constantType, constantValue⟩ := constant
    simp
  simp only [findConstant?, Array.findIdx?_eq_some_iff_getElem, hSame, ne_eq,
    Array.getElem?_eq_some_iff, not_exists]
  constructor
  · intro h
    obtain ⟨hPlace, hFound, hBefore⟩ := h
    exact ⟨⟨hPlace, hFound⟩, fun earlier hEarlier _ => hBefore earlier hEarlier⟩
  · intro h
    obtain ⟨⟨hPlace, hFound⟩, hBefore⟩ := h
    exact ⟨hPlace, hFound,
      fun earlier hEarlier => hBefore earlier hEarlier (Nat.lt_trans hEarlier hPlace)⟩

/-- A constant is replaced at the first place where it stands, if the new bytes are a value of the
same type. Nothing but this entry is touched. -/
theorem replaceConstant_eq_ok {type : ConstantType} {expected new : List UInt8} :
    module.replaceConstant type expected new = .ok (result, place) ↔
      module.findConstant? type expected = some place ∧ type.checkValue new = .ok () ∧
        result = { module with
          constants := module.constants.modify place fun constant =>
            { constant with value := new } } := by
  rw [replaceConstant]
  cases module.findConstant? type expected with
  | none => simp
  | some found =>
      cases type.checkValue new with
      | error error => simp
      | ok _ =>
          simp only [Except.ok.injEq, Prod.mk.injEq, Option.some.injEq, true_and]
          constructor
          · intro h
            obtain ⟨rfl, rfl⟩ := h
            exact ⟨rfl, rfl⟩
          · intro h
            obtain ⟨rfl, rfl⟩ := h
            exact ⟨rfl, rfl⟩

/-- A constant of the new pool is an old one, or has the type and the bytes that were asked
for. -/
theorem mem_constants_of_replaceConstant {type : ConstantType} {expected new : List UInt8}
    (h : module.replaceConstant type expected new = .ok (result, place)) {constant : Constant}
    (hConstant : constant ∈ result.constants.toList) :
    constant ∈ module.constants.toList ∨ constant = ⟨type, new⟩ := by
  obtain ⟨hFound, -, rfl⟩ := replaceConstant_eq_ok.mp h
  obtain ⟨hPlace, -⟩ := findConstant?_eq_some.mp hFound
  rcases mem_or_eq_of_mem_modify (Array.mem_toList_iff.mp hConstant) with
    hOld | ⟨old, hOld, rfl⟩
  · exact .inl (Array.mem_toList_iff.mpr hOld)
  · rw [hPlace, Option.some.injEq] at hOld
    subst hOld
    exact .inr rfl

end Spec

/-- Two modules are alike to the entries of other tables if all pools have the same sizes and
what is looked up is the same. -/
structure Alike (first second : Module) : Prop where
  sizes : ∀ pool, first.poolSize pool = second.poolSize pool
  structHandles : first.structHandles = second.structHandles
  functionHandles : first.functionHandles = second.functionHandles
  signatures : first.signatures = second.signatures
  structDefinitions : first.structDefinitions = second.structDefinitions

namespace Alike

variable {first second : Module} (hAlike : first.Alike second)

include hAlike

/-- All tables are as long as before, so an index leads to an entry if it did. -/
theorem resolves {pool : Pool} {index : Index pool} (h : first.Resolves index) :
    second.Resolves index := by
  rwa [Resolves, ← hAlike.sizes]

/-- Signatures are what they were. -/
theorem parametersBelow {index : Index .signatures} {count : Nat}
    (h : first.ParametersBelow index count) : second.ParametersBelow index count := by
  rwa [ParametersBelow, ← hAlike.signatures]

theorem moduleHandle {handle : ModuleHandle} (h : handle.SoundIn first) : handle.SoundIn second :=
  ⟨hAlike.resolves h.1, hAlike.resolves h.2⟩

theorem structHandle {handle : StructHandle} (h : handle.SoundIn first) : handle.SoundIn second :=
  ⟨hAlike.resolves h.1, hAlike.resolves h.2⟩

/-- The sound parts of a module are carried over one by one. None of them asks for a name or a
constant itself, only for its place. -/
theorem functionHandle {handle : FunctionHandle} (h : handle.SoundIn first) :
    handle.SoundIn second := by
  obtain ⟨hModule, hName, hParameters, hResults⟩ := h
  exact ⟨hAlike.resolves hModule, hAlike.resolves hName, hAlike.parametersBelow hParameters,
    hAlike.parametersBelow hResults⟩

theorem structDefinition {definition : StructDefinition} (h : definition.SoundIn first) :
    definition.SoundIn second := by
  obtain ⟨handle, hHandle, hFields⟩ := h
  rw [hAlike.structHandles] at hHandle
  refine ⟨handle, hHandle, ?_⟩
  intro field hField
  obtain ⟨hName, hStructs, hParameters⟩ := hFields field hField
  rw [hAlike.structHandles] at hStructs
  exact ⟨hAlike.resolves hName, hStructs, hParameters⟩

theorem instantiation {pool : Pool} {instantiation : Instantiation pool}
    (h : instantiation.SoundIn first) : instantiation.SoundIn second :=
  ⟨hAlike.resolves h.1, hAlike.resolves h.2⟩

theorem fieldHandle {handle : FieldHandle} (h : handle.SoundIn first) : handle.SoundIn second := by
  rwa [FieldHandle.SoundIn, ← hAlike.structDefinitions]

/-- What an operand leads to is still there, since tables keep their sizes. -/
theorem operand {frame : Verify.Frame} {instruction : Instruction}
    (h : instruction.opcode.operand.SoundIn first frame instruction.operand) :
    instruction.opcode.operand.SoundIn second frame instruction.operand := by
  obtain ⟨opcode, value⟩ := instruction
  cases opcode <;> first
    | exact h
    | exact hAlike.resolves h
    | exact hAlike.parametersBelow h

theorem functionDefinition {definition : FunctionDefinition} (h : definition.SoundIn first) :
    definition.SoundIn second := by
  obtain ⟨handle, hHandle, hAcquires, hCode⟩ := h
  rw [hAlike.functionHandles] at hHandle
  refine ⟨handle, hHandle, fun index hIndex => hAlike.resolves (hAcquires index hIndex), ?_⟩
  intro code hSome
  obtain ⟨parameters, locals, hParameters, hLocals, hBelow, hOperands⟩ := hCode code hSome
  rw [hAlike.signatures] at hParameters hLocals
  exact ⟨parameters, locals, hParameters, hLocals, hBelow,
    fun instruction hMember => hAlike.operand (hOperands instruction hMember)⟩

end Alike

/-- What a module that is read from a file has, apart from sizes for which the directory has a
place. These are a matter of the file alone, and a change may exceed them for a while. -/
structure Storable (module : Module) : Prop where
  magic : module.magic = magicBytes
  version : isSupported module.version = true
  tableOrder : module.emissionOrder = module.tableOrder
  readable : module.Readable

theorem Canonical.storable {module : Module} (h : module.Canonical) : module.Storable :=
  ⟨h.magic, h.version, h.tableOrder, h.readable⟩

/-- A module is read from its file, unless the file is too long for the directory. -/
theorem Storable.canonical {module : Module} (h : module.Storable)
    (hSize : module.encode.length < UInt32.size) : module.Canonical := by
  rw [← ordered_eq_self h.tableOrder]
  exact canonical_ordered h.magic h.version h.readable
    (Nat.lt_of_le_of_lt (length_bodies_le _) hSize)

/-- The module with other names and constants. -/
def withPools (module : Module) (names : Array Identifier) (values : Array Constant) : Module :=
  { module with identifiers := names, constants := values }

section Pools

variable {module : Module} {names : Array Identifier} {values : Array Constant}
  (hNames : names.size = module.identifiers.size) (hValues : values.size = module.constants.size)

include hNames hValues

/-- Names and constants are only counted by the other tables. -/
theorem alike_withPools :
    module.Alike (module.withPools names values) where
  sizes := by
    intro pool
    cases pool with
    | identifiers => exact hNames.symm
    | constants => exact hValues.symm
    | _ => rfl
  structHandles := rfl
  functionHandles := rfl
  signatures := rfl
  structDefinitions := rfl

theorem size_withPools (kind : TableKind) :
    (module.withPools names values).size kind = module.size kind := by
  cases kind with
  | identifiers => exact hNames
  | constants => exact hValues
  | _ => rfl

/-- Tables are written in the same order, as none becomes empty or gets its first entry. -/
theorem emissionOrder_withPools :
    (module.withPools names values).emissionOrder = module.emissionOrder :=
  emissionOrder_congr rfl (size_withPools hNames hValues)

/-- A sound module stays sound with as many other names and constants. -/
theorem Sound.withPools (h : module.Sound) (hNodup : names.toList.Nodup)
    (hEncoded : ∀ constant ∈ values.toList,
      ∃ value, ConstantValue.Encodes constant.type value constant.value) :
    (module.withPools names values).Sound := by
  have hAlike := alike_withPools hNames hValues
  exact {
    magic := h.magic
    version := h.version
    sizes := fun kind => (size_withPools hNames hValues kind).symm ▸ h.sizes kind
    identifiers := hNodup
    constants := hEncoded
    self := hAlike.resolves h.self
    moduleHandles := fun handle hMember => hAlike.moduleHandle (h.moduleHandles handle hMember)
    friends := fun handle hMember => hAlike.moduleHandle (h.friends handle hMember)
    structHandles := fun handle hMember => hAlike.structHandle (h.structHandles handle hMember)
    functionHandles := fun handle hMember =>
      hAlike.functionHandle (h.functionHandles handle hMember)
    signatures := h.signatures
    structDefinitions := fun definition hMember =>
      hAlike.structDefinition (h.structDefinitions definition hMember)
    structInstantiations := fun entry hMember =>
      hAlike.instantiation (h.structInstantiations entry hMember)
    functionInstantiations := fun entry hMember =>
      hAlike.instantiation (h.functionInstantiations entry hMember)
    fieldInstantiations := fun entry hMember =>
      hAlike.instantiation (h.fieldInstantiations entry hMember)
    fieldHandles := fun handle hMember => hAlike.fieldHandle (h.fieldHandles handle hMember)
    functionDefinitions := fun definition hMember =>
      hAlike.functionDefinition (h.functionDefinitions definition hMember) }

/-- A module that could be read can be read with as many other names and constants. -/
theorem Storable.withPools (h : module.Storable)
    (hTypes : ∀ constant ∈ values.toList, constant.type.Readable module.version) :
    (module.withPools names values).Storable := by
  have hOrder := (emissionOrder_withPools hNames hValues).trans h.tableOrder
  exact ⟨h.magic, h.version, hOrder, { h.readable with constants := hTypes }⟩

end Pools

section Edited

variable {module result : Module} {pairs : List (String × String)} {type : ConstantType}
  {expected new : List UInt8} {place : Nat}

/-- A change of names keeps the module sound: what has to be looked at again is that no name is
there twice. -/
theorem Sound.rename (h : module.Sound) (hRename : module.rename pairs = .ok result) :
    result.Sound := by
  obtain ⟨changes, -, hNodup, rfl⟩ := rename_eq_ok.mp hRename
  exact h.withPools Array.size_map rfl hNodup h.constants

/-- A change of names leaves the types and the code as they are, and with them all that a reader may
refuse. -/
theorem Storable.rename (h : module.Storable) (hRename : module.rename pairs = .ok result) :
    result.Storable := by
  obtain ⟨changes, -, -, rfl⟩ := rename_eq_ok.mp hRename
  exact h.withPools Array.size_map rfl h.readable.constants

/-- The file of the changed module has to be short enough, since new names may be longer. -/
theorem Canonical.rename (h : module.Canonical) (hRename : module.rename pairs = .ok result)
    (hSize : result.encode.length < UInt32.size) : result.Canonical :=
  (h.storable.rename hRename).canonical hSize

/-- A new constant keeps the module sound: what has to be looked at again is that it is a value of
its type. -/
theorem Sound.replaceConstant (h : module.Sound)
    (hReplace : module.replaceConstant type expected new = .ok (result, place)) :
    result.Sound := by
  have hMember := @mem_constants_of_replaceConstant _ _ _ _ _ _ hReplace
  obtain ⟨-, hValue, rfl⟩ := replaceConstant_eq_ok.mp hReplace
  refine h.withPools rfl Array.size_modify h.identifiers ?_
  intro constant hConstant
  rcases hMember hConstant with hOld | rfl
  · exact h.constants constant hOld
  · exact ConstantType.checkValue_eq_ok.mp hValue

/-- The type of the new constant is that of an old one. -/
theorem Storable.replaceConstant (h : module.Storable)
    (hReplace : module.replaceConstant type expected new = .ok (result, place)) :
    result.Storable := by
  have hMember := @mem_constants_of_replaceConstant _ _ _ _ _ _ hReplace
  obtain ⟨hFound, -, rfl⟩ := replaceConstant_eq_ok.mp hReplace
  have hPlace := Array.mem_of_getElem? (findConstant?_eq_some.mp hFound).1
  refine h.withPools rfl Array.size_modify ?_
  intro constant hConstant
  rcases hMember hConstant with hOld | rfl
  · exact h.readable.constants constant hOld
  · exact h.readable.constants ⟨type, expected⟩ (Array.mem_toList_iff.mpr hPlace)

/-- The file of the changed module has to be short enough, since the new value may be longer. -/
theorem Canonical.replaceConstant (h : module.Canonical)
    (hReplace : module.replaceConstant type expected new = .ok (result, place))
    (hSize : result.encode.length < UInt32.size) : result.Canonical :=
  (h.storable.replaceConstant hReplace).canonical hSize

end Edited

end Module

end MoveModule
