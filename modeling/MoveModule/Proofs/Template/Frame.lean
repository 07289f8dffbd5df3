import MoveModule.Proofs.Module.Parts
import MoveModule.Proofs.Module.Replace
import MoveModule.Proofs.Template.Update

/-! What a change leaves alone in a file. All its parts stay but for the bytes of one table
and for what the directory says about lengths and places. -/
namespace MoveModule

open Binary

/-- At this place of the directory is the table of constants. It falls into entries, and this is
one of them: its type, the length of its value and the value. -/
structure Parts.HoldsConstant (parts : Parts) (place : Nat) (earlier : List Constant)
    (type : ConstantType) (value : List UInt8) (later : List Constant) : Prop where
  kind : parts.directory[place]?.map Extent.kind = some .constants
  body : parts.bodies[place]? = some (earlier.flatMap Constant.codec.write ++
    (ConstantType.codec.write type ++ (Uleb128.encode value.length ++ value)) ++
    later.flatMap Constant.codec.write)

namespace Module

variable {module result : Module}

/-- The bytes of a constant stand in the table of constants between those of the entries before it
and of the entries behind it. -/
theorem holdsConstant_parts {place : Nat} {earlier later : List Constant} {type : ConstantType}
    {value : List UInt8} (hPlace : module.emissionOrder[place]? = some .constants)
    (hConstants : module.constants.toList = earlier ++ ⟨type, value⟩ :: later) :
    module.parts.HoldsConstant place earlier type value later where
  kind := by rw [← List.getElem?_map, map_kind_directory_parts, hPlace]
  body := by
    have hBody : module.body .constants = earlier.flatMap Constant.codec.write ++
        Constant.codec.write ⟨type, value⟩ ++ later.flatMap Constant.codec.write := by
      show module.constants.toList.flatMap Constant.codec.write = _
      rw [hConstants, List.flatMap_append, List.flatMap_cons, List.append_assoc]
    show (module.emissionOrder.map module.body)[place]? = _
    rw [List.getElem?_map, hPlace, Option.map_some, hBody]
    rfl

/-- A table with an entry is written. -/
theorem exists_place_of_size_pos {kind : TableKind} (h : 0 < module.size kind) :
    ∃ place : Nat, module.emissionOrder[place]? = some kind :=
  List.mem_iff_getElem?.mp (mem_emissionOrder.mpr (.inr h))

/-- One constant has another value, and those around it are the same. -/
theorem constants_of_replaceConstant {type : ConstantType} {expected new : List UInt8}
    {place : Nat} (h : module.replaceConstant type expected new = .ok (result, place)) :
    ∃ earlier later, module.constants.toList = earlier ++ ⟨type, expected⟩ :: later ∧
      result.constants.toList = earlier ++ ⟨type, new⟩ :: later := by
  obtain ⟨⟨hMember, hNew⟩, -⟩ := exists_replaceConstant_eq_ok.mp ⟨place, h⟩
  obtain ⟨earlier, later, hSplit⟩ := exists_splitsAt hMember
  rw [hSplit.replaceConstant_of_ok hNew, Except.ok.injEq, Prod.mk.injEq] at h
  obtain ⟨rfl, -⟩ := h
  exact ⟨earlier, later, hSplit.constants, rfl⟩

/-- A change of names exchanges the table of identifiers. Of the other parts only the places and
lengths in the directory can change with it. -/
theorem alikeBut_of_rename {pairs : List (String × String)}
    (h : module.rename pairs = .ok result) :
    Parts.AlikeBut .identifiers module.parts result.parts := by
  obtain ⟨changes, -, -, rfl⟩ := rename_eq_ok.mp h
  have hSize : (module.identifiers.map changes.apply).size = module.identifiers.size :=
    Array.size_map
  refine alikeBut_parts rfl rfl rfl (emissionOrder_withPools hSize rfl).symm ?_
  intro kind hKind
  cases kind with
  | identifiers => exact absurd rfl hKind
  | _ => rfl

/-- The change of a constant exchanges the table of constants. Of the other parts only the places
and lengths in the directory can change with it. -/
theorem alikeBut_of_replaceConstant {type : ConstantType} {expected new : List UInt8}
    {place : Nat} (h : module.replaceConstant type expected new = .ok (result, place)) :
    Parts.AlikeBut .constants module.parts result.parts := by
  obtain ⟨-, -, rfl⟩ := replaceConstant_eq_ok.mp h
  have hSize : (module.constants.modify place fun constant =>
      { constant with value := new }).size = module.constants.size := Array.size_modify
  refine alikeBut_parts rfl rfl rfl (emissionOrder_withPools rfl hSize).symm ?_
  intro kind hKind
  cases kind with
  | constants => exact absurd rfl hKind
  | _ => rfl

end Module

namespace Template

/-- A changed file has the parts of the old one. Only the names differ, or only one constant and
there only the value and its length. -/
theorem update_frame :
    (∀ bytes pairs result, updateIdentifiers bytes pairs = .ok result →
      ∃ before after : Parts, before.Describes bytes ∧ after.Describes result ∧
        Parts.AlikeBut .identifiers before after ∧ before.Contiguous ∧ after.Contiguous) ∧
    ∀ bytes tag expected new result, updateConstants bytes tag expected new = .ok result →
      ∃ (before after : Parts) (place : Nat) (type : ConstantType)
        (earlier later : List Constant),
        before.Describes bytes ∧ after.Describes result ∧
        Parts.AlikeBut .constants before after ∧ before.Contiguous ∧ after.Contiguous ∧
        ConstantType.ofTag tag = .ok type ∧
        before.HoldsConstant place earlier type expected later ∧
        after.HoldsConstant place earlier type new later := by
  constructor
  · intro bytes pairs result hUpdate
    obtain ⟨module, renamed, hModule, hRename, hResult⟩ := updateIdentifiers_eq_ok.mp hUpdate
    obtain ⟨-, rfl⟩ := serialize_eq_ok.mp (serialize_of_deserialize hModule)
    obtain ⟨-, rfl⟩ := serialize_eq_ok.mp hResult
    exact ⟨module.parts, renamed.parts, module.describes_encode, renamed.describes_encode,
      Module.alikeBut_of_rename hRename, module.contiguous_parts, renamed.contiguous_parts⟩
  · intro bytes tag expected new result hUpdate
    obtain ⟨type, module, patched, found, hType, hModule, hReplace, hResult⟩ :=
      updateConstants_eq_ok.mp hUpdate
    obtain ⟨-, rfl⟩ := serialize_eq_ok.mp (serialize_of_deserialize hModule)
    obtain ⟨-, rfl⟩ := serialize_eq_ok.mp hResult
    obtain ⟨earlier, later, hOld, hNew⟩ := Module.constants_of_replaceConstant hReplace
    have hAlike := Module.alikeBut_of_replaceConstant hReplace
    have hSize : 0 < module.size .constants := by
      show 0 < module.constants.size
      rw [← Array.length_toList, hOld, List.length_append]
      exact Nat.add_pos_right _ (Nat.succ_pos _)
    obtain ⟨place, hPlace⟩ := Module.exists_place_of_size_pos hSize
    have hPatchedPlace : patched.emissionOrder[place]? = some .constants := by
      rw [← Module.map_kind_directory_parts, ← hAlike.kinds, Module.map_kind_directory_parts,
        hPlace]
    exact ⟨module.parts, patched.parts, place, type, earlier, later, module.describes_encode,
      patched.describes_encode, hAlike, module.contiguous_parts, patched.contiguous_parts, hType,
      Module.holdsConstant_parts hPlace hOld, Module.holdsConstant_parts hPatchedPlace hNew⟩

/-- A longer name moves the tables behind the names. -/
theorem update_frame_limit :
    updateIdentifiers limitBytes [("M", "Limits")] = .ok renamedLimit.encode ∧
      Parts.AlikeBut .identifiers limitModule.parts renamedLimit.parts ∧
      limitModule.parts.directory =
        [⟨.identifiers, 0, 2⟩, ⟨.moduleHandles, 2, 2⟩, ⟨.addresses, 4, 32⟩, ⟨.constants, 36, 3⟩] ∧
      renamedLimit.parts.directory =
        [⟨.identifiers, 0, 7⟩, ⟨.moduleHandles, 7, 2⟩, ⟨.addresses, 9, 32⟩, ⟨.constants, 41, 3⟩] ∧
      updateConstants limitBytes "U8" [6] [7] = .ok raisedLimit.encode ∧
      Parts.AlikeBut .constants limitModule.parts raisedLimit.parts ∧
      ∃ place type earlier later, limitModule.parts.HoldsConstant place earlier type [6] later ∧
        raisedLimit.parts.HoldsConstant place earlier type [7] later := by
  have hRename : updateIdentifiers limitBytes [("M", "Limits")] = .ok renamedLimit.encode :=
    updateIdentifiers_eq_ok.mpr
      ⟨_, _, deserialize_limitBytes, rename_limitModule, serialize_eq_ok.mpr ⟨rfl, rfl⟩⟩
  have hReplace : updateConstants limitBytes "U8" [6] [7] = .ok raisedLimit.encode :=
    updateConstants_eq_ok.mpr ⟨_, _, _, _, rfl, deserialize_limitBytes, replaceConstant_limitModule,
      serialize_eq_ok.mpr ⟨rfl, rfl⟩⟩
  have hBytes : limitModule.parts.bytes = limitBytes := by decide +kernel
  obtain ⟨hNames, hConstants⟩ := update_frame
  obtain ⟨before, after, hBefore, hAfter, hAlike, -, -⟩ := hNames _ _ _ hRename
  obtain rfl := (hBefore _).mp hBytes
  obtain rfl := (hAfter _).mp renamedLimit.bytes_parts
  obtain ⟨before, after, place, type, earlier, later, hBefore, hAfter, hRaised, -, -, -, hOld,
    hNew⟩ := hConstants _ _ _ _ _ hReplace
  obtain rfl := (hBefore _).mp hBytes
  obtain rfl := (hAfter _).mp raisedLimit.bytes_parts
  exact ⟨hRename, hAlike, by decide +kernel, by decide +kernel, hReplace, hRaised, place, type,
    earlier, later, hOld, hNew⟩

end Template

end MoveModule
