import Mathlib.Data.List.Nodup
import MoveModule.Proofs.Module.Rename
import MoveModule.Proofs.Template.Update

/-! A change of names in a file can be taken back. No two names become the same, so the pairs
of the names that were changed can be turned around, and these pairs give the old file again
byte for byte. -/
namespace MoveModule

namespace Renaming

/-- Pairs that take a change of these names back: for every name that the change has a pair for,
from what it becomes to what it was. -/
def undo (pairs : List (String × String)) (names : List Identifier) : List (String × String) :=
  (names.filter fun name => pairs.any fun pair => pair.1 == name.text).map fun name =>
    (newName pairs name.text, name.text)

variable {pairs : List (String × String)} {names : List Identifier}

theorem mem_undo {changed old : String} : (changed, old) ∈ undo pairs names ↔
    ∃ name ∈ names, (∃ pair ∈ pairs, pair.1 = name.text) ∧
      newName pairs name.text = changed ∧ name.text = old := by
  simp only [undo, List.mem_map, List.mem_filter, List.any_eq_true, beq_iff_eq, Prod.mk.injEq,
    and_assoc]

/-- The old names are names. -/
theorem isName_of_mem_undo {pair : String × String} (h : pair ∈ undo pairs names) :
    IsName pair.2 := by
  obtain ⟨name, -, -, -, hName⟩ := mem_undo.mp h
  rw [← hName]
  exact name.isName

section

variable (hDistinct : names.Nodup)
  (hInjective : ∀ first ∈ names, ∀ second ∈ names,
    newName pairs first.text = newName pairs second.text → first = second)

include hDistinct hInjective

theorem nodup_map_fst_undo : ((undo pairs names).map Prod.fst).Nodup := by
  rw [undo, List.map_map]
  refine List.Nodup.map_on ?_ (hDistinct.filter _)
  intro first hFirst second hSecond hSame
  exact hInjective first (List.mem_of_mem_filter hFirst) second (List.mem_of_mem_filter hSecond)
    hSame

/-- What a name has become is changed back. A name that was kept is kept again, since it is no
new name of another one. -/
theorem newName_undo {name : Identifier} (hName : name ∈ names) :
    newName (undo pairs names) (newName pairs name.text) = name.text := by
  rw [← becomes_iff, becomes_iff_of_nodup (nodup_map_fst_undo hDistinct hInjective)]
  by_cases hKey : ∃ pair ∈ pairs, pair.1 = name.text
  · exact .inl (mem_undo.mpr ⟨name, hName, hKey, rfl, rfl⟩)
  · have hNone (pair : String × String) (hPair : pair ∈ pairs) : pair.1 ≠ name.text :=
      fun hSame => hKey ⟨pair, hPair, hSame⟩
    refine .inr ⟨?_, (newName_eq_self hNone).symm⟩
    intro pair hPair hSame
    obtain ⟨other, hOther, hOtherKey, hChanged, -⟩ := mem_undo.mp hPair
    obtain rfl := hInjective other hOther name hName (hChanged.trans hSame)
    exact hKey hOtherKey

end

end Renaming

namespace Module

variable {module renamed : Module} {pairs : List (String × String)}

/-- No two names become the same in a change that is not refused. -/
theorem newName_injective_of_rename (hRename : module.rename pairs = .ok renamed) :
    ∀ first ∈ module.identifiers.toList, ∀ second ∈ module.identifiers.toList,
      Renaming.newName pairs first.text = Renaming.newName pairs second.text → first = second := by
  obtain ⟨changes, hChanges, hNames, -⟩ := rename_eq_ok.mp hRename
  rw [Array.toList_map] at hNames
  intro first hFirst second hSecond hSame
  refine List.inj_on_of_nodup_map hNames hFirst hSecond ?_
  rwa [Identifier.mk.injEq, Renaming.text_apply hChanges, Renaming.text_apply hChanges]

/-- The module comes back from the renamed one. -/
theorem rename_undo (hNodup : module.identifiers.toList.Nodup)
    (hRename : module.rename pairs = .ok renamed) :
    renamed.rename (Renaming.undo pairs module.identifiers.toList) = .ok module := by
  have hInjective := newName_injective_of_rename hRename
  obtain ⟨changes, hChanges, -, rfl⟩ := rename_eq_ok.mp hRename
  have hNewNames : ∀ pair ∈ Renaming.undo pairs module.identifiers.toList, IsName pair.2 :=
    fun pair hPair => Renaming.isName_of_mem_undo hPair
  obtain ⟨back, hBack⟩ := Renaming.exists_ofPairs_eq hNewNames
  have hNames : (module.identifiers.map changes.apply).map back.apply = module.identifiers := by
    rw [Array.map_map]
    refine (Array.map_congr_left ?_).trans (Array.map_id _)
    intro name hName
    rw [Function.comp_apply, id_eq, Identifier.mk.injEq, Renaming.text_apply hBack,
      Renaming.text_apply hChanges]
    exact Renaming.newName_undo hNodup hInjective (Array.mem_toList_iff.mpr hName)
  refine rename_eq_ok.mpr ⟨back, hBack, ?_, ?_⟩
  · rwa [hNames]
  · rw [hNames]

end Module

namespace Template

/-- A change of names in a file is taken back byte for byte, unless the changed file is too long
to be read. -/
theorem updateIdentifiers_undo {bytes result : List UInt8} {pairs : List (String × String)}
    (hUpdate : updateIdentifiers bytes pairs = .ok result) (hSize : result.length < UInt32.size) :
    ∃ module, deserialize bytes = .ok module ∧
      updateIdentifiers result (Renaming.undo pairs module.identifiers.toList) = .ok bytes := by
  obtain ⟨module, renamed, hModule, hRename, hResult⟩ := updateIdentifiers_eq_ok.mp hUpdate
  obtain ⟨-, rfl⟩ := serialize_eq_ok.mp hResult
  have hSound := Module.sound_of_verify (deserialize_eq_ok.mp hModule).2
  have hCanonical := (canonical_of_deserialize hModule).rename hRename hSize
  refine ⟨module, hModule, updateIdentifiers_eq_ok.mpr ⟨renamed, module, ?_, ?_, ?_⟩⟩
  · exact deserialize_of_serialize hCanonical hResult
  · exact Module.rename_undo hSound.identifiers hRename
  · exact serialize_of_deserialize hModule

/-- The file of a module with two names. -/
def namesBytes (first second : UInt8) : List UInt8 :=
  [0xA1, 0x1C, 0xEB, 0x0B, 6, 0, 0, 0, 3, 7, 0, 4, 1, 4, 2, 8, 6, 32, 1, first, 1, second, 0, 0] ++
    List.replicate 32 0 ++ [0]

def namesModule : Module :=
  { bareModule with identifiers := bareModule.identifiers.push ⟨"N", rfl⟩ }

theorem deserialize_namesBytes : deserialize (namesBytes 0x4D 0x4E) = .ok namesModule :=
  deserialize_eq_ok.mpr ⟨rfl, rfl⟩

/-- Two names that were exchanged are exchanged again. -/
theorem updateIdentifiers_undo_exchange :
    updateIdentifiers (namesBytes 0x4D 0x4E) [("M", "N"), ("N", "M")] =
        .ok (namesBytes 0x4E 0x4D) ∧
      updateIdentifiers (namesBytes 0x4E 0x4D) [("N", "M"), ("M", "N")] =
        .ok (namesBytes 0x4D 0x4E) := by
  have hChanges : Renaming.ofPairs [("M", "N"), ("N", "M")] =
      .ok [("M", ⟨"N", rfl⟩), ("N", ⟨"M", rfl⟩)] := rfl
  have hRename : namesModule.rename [("M", "N"), ("N", "M")] =
      .ok { namesModule with identifiers := #[⟨"N", rfl⟩, ⟨"M", rfl⟩] } :=
    Module.rename_of_nodup hChanges (by decide)
  have hUpdate : updateIdentifiers (namesBytes 0x4D 0x4E) [("M", "N"), ("N", "M")] =
      .ok (namesBytes 0x4E 0x4D) :=
    updateIdentifiers_eq_ok.mpr ⟨_, _, deserialize_namesBytes, hRename,
      serialize_eq_ok.mpr ⟨rfl, by decide +kernel⟩⟩
  obtain ⟨module, hModule, hUndo⟩ := updateIdentifiers_undo hUpdate (by decide)
  obtain rfl := Except.ok.inj (deserialize_namesBytes.symm.trans hModule)
  exact ⟨hUpdate, hUndo⟩

end Template

end MoveModule
