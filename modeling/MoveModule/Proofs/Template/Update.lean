import MoveModule.Proofs.Module.Edit
import MoveModule.Proofs.Template

/-! Files with other names or another constant. The new file is that of the changed module,
and reading it gives this module back unless it has become too long for its directory. -/
namespace MoveModule.Template

variable {bytes result : List UInt8} {pairs : List (String × String)} {tag : String}
  {expected new : List UInt8}

/-- Names are updated if and only if the three steps succeed one after the other: the file is read,
the names are changed, and what they are changed to is written. -/
theorem updateIdentifiers_eq_ok :
    updateIdentifiers bytes pairs = .ok result ↔ ∃ module renamed,
      deserialize bytes = .ok module ∧ module.rename pairs = .ok renamed ∧
        serialize renamed = .ok result := by
  simp only [updateIdentifiers, Except.bind_eq_ok, Except.mapError_eq_ok]
  constructor
  · intro h
    obtain ⟨module, hModule, renamed, hRename, hResult⟩ := h
    exact ⟨module, renamed, hModule, hRename, hResult⟩
  · intro h
    obtain ⟨module, renamed, hModule, hRename, hResult⟩ := h
    exact ⟨module, hModule, renamed, hRename, hResult⟩

/-- A constant is updated if and only if its type is known and the three steps succeed: the file is
read, the constant is found and replaced, and the result is written. -/
theorem updateConstants_eq_ok :
    updateConstants bytes tag expected new = .ok result ↔ ∃ type module patched place,
      ConstantType.ofTag tag = .ok type ∧ deserialize bytes = .ok module ∧
        module.replaceConstant type expected new = .ok (patched, place) ∧
        serialize patched = .ok result := by
  simp only [updateConstants, Except.bind_eq_ok, Except.mapError_eq_ok, Prod.exists]
  constructor
  · intro h
    obtain ⟨type, hType, module, hModule, patched, place, hReplace, hResult⟩ := h
    exact ⟨type, module, patched, place, hType, hModule, hReplace, hResult⟩
  · intro h
    obtain ⟨type, module, patched, place, hType, hModule, hReplace, hResult⟩ := h
    exact ⟨type, hType, module, hModule, patched, place, hReplace, hResult⟩

/-- A changed module passes the checks again, so it is always written, and unless its file is
too long for the directory it is what is read from it. -/
theorem deserialize_update :
    (∀ bytes pairs result, updateIdentifiers bytes pairs = .ok result →
      result.length < UInt32.size → ∃ module renamed, deserialize bytes = .ok module ∧
        module.rename pairs = .ok renamed ∧ deserialize result = .ok renamed) ∧
    (∀ bytes tag expected new result, updateConstants bytes tag expected new = .ok result →
      result.length < UInt32.size → ∃ type module patched place,
        ConstantType.ofTag tag = .ok type ∧ deserialize bytes = .ok module ∧
        module.replaceConstant type expected new = .ok (patched, place) ∧
        deserialize result = .ok patched) ∧
    (∀ (module renamed : Module) pairs, module.verify = .ok () →
      module.rename pairs = .ok renamed →
        renamed.verify = .ok () ∧ serialize renamed = .ok renamed.encode) ∧
    ∀ (module patched : Module) type expected new place, module.verify = .ok () →
      module.replaceConstant type expected new = .ok (patched, place) →
        patched.verify = .ok () ∧ serialize patched = .ok patched.encode := by
  refine ⟨?_, ?_, ?_, ?_⟩
  · intro bytes pairs result hUpdate hSize
    obtain ⟨module, renamed, hModule, hRename, hResult⟩ := updateIdentifiers_eq_ok.mp hUpdate
    obtain ⟨-, rfl⟩ := serialize_eq_ok.mp hResult
    have hCanonical := (canonical_of_deserialize hModule).rename hRename hSize
    exact ⟨module, renamed, hModule, hRename, deserialize_of_serialize hCanonical hResult⟩
  · intro bytes tag expected new result hUpdate hSize
    obtain ⟨type, module, patched, place, hType, hModule, hReplace, hResult⟩ :=
      updateConstants_eq_ok.mp hUpdate
    obtain ⟨-, rfl⟩ := serialize_eq_ok.mp hResult
    have hCanonical := (canonical_of_deserialize hModule).replaceConstant hReplace hSize
    exact ⟨type, module, patched, place, hType, hModule, hReplace,
      deserialize_of_serialize hCanonical hResult⟩
  · intro module renamed pairs hVerify hRename
    have hSound := (Module.sound_of_verify hVerify).rename hRename
    have hAgain := Module.verify_of_sound hSound
    exact ⟨hAgain, serialize_eq_ok.mpr ⟨hAgain, rfl⟩⟩
  · intro module patched type expected new place hVerify hReplace
    have hSound := (Module.sound_of_verify hVerify).replaceConstant hReplace
    have hAgain := Module.verify_of_sound hSound
    exact ⟨hAgain, serialize_eq_ok.mpr ⟨hAgain, rfl⟩⟩

/-- A module with one name and one constant, which is the number 6. -/
def limitModule : Module :=
  { bareModule with
    tableOrder := [.identifiers, .moduleHandles, .addresses, .constants]
    constants := #[⟨.integer .w8, [6]⟩] }

def limitBytes : List UInt8 :=
  [0xA1, 0x1C, 0xEB, 0x0B, 6, 0, 0, 0, 4, 7, 0, 2, 1, 2, 2, 8, 4, 32, 6, 36, 3, 1, 0x4D, 0, 0] ++
    List.replicate 32 0 ++ [2, 1, 6, 0]

def renamedLimit : Module :=
  { limitModule with identifiers := #[⟨"Limits", rfl⟩] }

def raisedLimit : Module :=
  { limitModule with constants := #[⟨.integer .w8, [7]⟩] }

theorem deserialize_limitBytes : deserialize limitBytes = .ok limitModule :=
  deserialize_eq_ok.mpr ⟨rfl, rfl⟩

theorem rename_limitModule : limitModule.rename [("M", "Limits")] = .ok renamedLimit := by
  have hChanges : Renaming.ofPairs [("M", "Limits")] = .ok [("M", ⟨"Limits", rfl⟩)] := rfl
  have hNames : limitModule.identifiers.map (Renaming.apply [("M", ⟨"Limits", rfl⟩)]) =
      #[⟨"Limits", rfl⟩] := by
    simp [limitModule, bareModule, Renaming.apply]
  refine Module.rename_eq_ok.mpr ⟨_, hChanges, ?_, ?_⟩
  · rw [hNames]
    exact List.nodup_cons.mpr ⟨List.not_mem_nil, List.nodup_nil⟩
  · rw [hNames]
    rfl

theorem replaceConstant_limitModule :
    limitModule.replaceConstant (.integer .w8) [6] [7] = .ok (raisedLimit, 0) := by
  refine Module.replaceConstant_eq_ok.mpr
    ⟨Module.findConstant?_eq_some.mpr ⟨rfl, ?_⟩, rfl, rfl⟩
  intro earlier hEarlier
  exact absurd hEarlier (Nat.not_lt_zero earlier)

/-- Both updates of a real file: its name and its limit are changed, and what comes out is read as
the changed modules. -/
theorem deserialize_update_limit :
    updateIdentifiers limitBytes [("M", "Limits")] = .ok renamedLimit.encode ∧
      updateConstants limitBytes "U8" [6] [7] = .ok raisedLimit.encode ∧
      renamedLimit.verify = .ok () ∧ raisedLimit.verify = .ok () ∧
      deserialize renamedLimit.encode = .ok renamedLimit ∧
      deserialize raisedLimit.encode = .ok raisedLimit := by
  obtain ⟨hIdentifiers, hConstants, hRename, hReplace⟩ := deserialize_update
  obtain ⟨hRenamed, hRenamedFile⟩ := hRename _ _ _ rfl rename_limitModule
  obtain ⟨hRaised, hRaisedFile⟩ := hReplace _ _ _ _ _ _ rfl replaceConstant_limitModule
  have hFirst : updateIdentifiers limitBytes [("M", "Limits")] = .ok renamedLimit.encode :=
    updateIdentifiers_eq_ok.mpr ⟨_, _, deserialize_limitBytes, rename_limitModule, hRenamedFile⟩
  have hSecond : updateConstants limitBytes "U8" [6] [7] = .ok raisedLimit.encode :=
    updateConstants_eq_ok.mpr
      ⟨_, _, _, _, rfl, deserialize_limitBytes, replaceConstant_limitModule, hRaisedFile⟩
  obtain ⟨_, _, hModule, hNames, hRead⟩ := hIdentifiers _ _ _ hFirst (by decide +kernel)
  obtain rfl := Except.ok.inj (deserialize_limitBytes.symm.trans hModule)
  obtain rfl := Except.ok.inj (rename_limitModule.symm.trans hNames)
  obtain ⟨type, _, _, place, hType, hAgain, hValue, hReadAgain⟩ :=
    hConstants _ _ _ _ _ hSecond (by decide +kernel)
  obtain rfl := Except.ok.inj (deserialize_limitBytes.symm.trans hAgain)
  obtain rfl : .integer .w8 = type := Except.ok.inj hType
  obtain ⟨rfl, rfl⟩ := Prod.mk.inj (Except.ok.inj (replaceConstant_limitModule.symm.trans hValue))
  exact ⟨hFirst, hSecond, hRenamed, hRaised, hRead, hReadAgain⟩

end MoveModule.Template
