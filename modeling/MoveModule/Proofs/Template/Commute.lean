import MoveModule.Proofs.Module.Replace
import MoveModule.Proofs.Template.Edit

/-! Changes that may be made in any order. A change of names and one of a constant look at
different pools. Two changes of constants do not get in each other's way if neither looks for what
the other one finds or leaves behind, since then each finds its constant where it was. -/
namespace MoveModule

section

variable {α : Type} [DecidableEq α] {old new other left : α} {items : List α}

/-- An item that neither goes nor comes is there after a replacement as it was before. -/
theorem mem_replace_of_ne (hOld : other ≠ old) (hNew : other ≠ new) :
    other ∈ items.replace old new ↔ other ∈ items := by
  induction items with
  | nil => rfl
  | cons item rest ih => grind

/-- Two replacements of first occurrences, where neither looks for what the other finds and neither
leaves what the other looks for. -/
theorem replace_comm (hOld : old ≠ other) (hNew : new ≠ other) (hLeft : left ≠ old) :
    (items.replace old new).replace other left = (items.replace other left).replace old new := by
  induction items with
  | nil => rfl
  | cons item rest ih => grind

end

namespace Module

variable {module renamed : Module} {pairs : List (String × String)}

/-- Names are changed without a look at the constants. -/
theorem constants_of_rename (h : module.rename pairs = .ok renamed) :
    renamed.constants = module.constants := by
  obtain ⟨changes, -, -, rfl⟩ := rename_eq_ok.mp h
  rfl

/-- Names are changed in the same way whatever the constants are. -/
theorem rename_withConstants {values : List Constant} {result : Module} :
    (module.withConstants values).rename pairs = .ok result ↔
      ∃ renamed, module.rename pairs = .ok renamed ∧ renamed.withConstants values = result := by
  simp only [rename_eq_ok]
  constructor
  · intro h
    obtain ⟨changes, hChanges, hNodup, rfl⟩ := h
    exact ⟨_, ⟨changes, hChanges, hNodup, rfl⟩, rfl⟩
  · intro h
    obtain ⟨_, ⟨changes, hChanges, hNodup, rfl⟩, rfl⟩ := h
    exact ⟨changes, hChanges, hNodup, rfl⟩

end Module

/-- The constant that is looked for. -/
def PlannedPatch.before (patch : PlannedPatch) : Constant :=
  ⟨patch.type, patch.expected⟩

/-- The constant that is put in its place. -/
def PlannedPatch.after (patch : PlannedPatch) : Constant :=
  ⟨patch.type, patch.new⟩

namespace Template.Edit

/-- Neither change looks for what the other one finds or leaves behind. Two changes of names are
left out, since both may change the same name. -/
def Independent : Edit → Edit → Prop
  | rename _, rename _ => False
  | rename _, replace _ => True
  | replace _, rename _ => True
  | replace first, replace second =>
      first.before ≠ second.before ∧ first.after ≠ second.before ∧ second.after ≠ first.before

instance : DecidableRel Independent
  | rename _, rename _ => inferInstanceAs (Decidable False)
  | rename _, replace _ => inferInstanceAs (Decidable True)
  | replace _, rename _ => inferInstanceAs (Decidable True)
  | replace first, replace second => inferInstanceAs (Decidable
      (first.before ≠ second.before ∧ first.after ≠ second.before ∧ second.after ≠ first.before))

theorem Independent.symm {first second : Edit} (h : first.Independent second) :
    second.Independent first := by
  cases first with
  | rename _ => cases second <;> exact h
  | replace _ =>
      cases second with
      | rename _ => exact h
      | replace _ =>
          obtain ⟨hBefore, hFirst, hSecond⟩ := h
          exact ⟨hBefore.symm, hSecond, hFirst⟩

/-- Values of different types are different constants. -/
theorem independent_replace_iff {first second : PlannedPatch} :
    (replace first).Independent (replace second) ↔
      first.type ≠ second.type ∨ first.expected ≠ second.expected ∧
        first.new ≠ second.expected ∧ second.new ≠ first.expected := by
  by_cases hType : first.type = second.type
  · simp [Independent, PlannedPatch.before, PlannedPatch.after, hType]
  · simp [Independent, PlannedPatch.before, PlannedPatch.after, hType, Ne.symm hType]

variable {module result : Module}

theorem foldlM_pair_eq_some {first second : Edit} :
    [first, second].foldlM change module = some result ↔
      ∃ middle, first.change module = some middle ∧ second.change middle = some result := by
  simp only [List.foldlM_cons, List.foldlM_nil, Option.bind_eq_bind, Option.bind_eq_some_iff,
    Option.pure_def, Option.some.injEq, exists_eq_right]

/-- Whether a constant can be replaced depends on its being there and on the new bytes, and on
nothing that another edit does. -/
theorem change_replace_eq_some {patch : PlannedPatch} :
    (replace patch).change module = some result ↔
      (patch.before ∈ module.constants.toList ∧ patch.type.checkValue patch.new = .ok ()) ∧
      module.withConstants (module.constants.toList.replace patch.before patch.after) = result :=
  change_replace.trans Module.exists_replaceConstant_eq_ok

/-- Names and constants are in different tables, so each change is made on what the other one leaves
alone. -/
theorem rename_replace_comm (pairs : List (String × String)) (patch : PlannedPatch) :
    [rename pairs, replace patch].foldlM change module =
      [replace patch, rename pairs].foldlM change module := by
  apply Option.ext
  intro result
  rw [foldlM_pair_eq_some, foldlM_pair_eq_some]
  simp only [change_rename, change_replace_eq_some]
  constructor
  · intro h
    obtain ⟨renamed, hRename, hFound, rfl⟩ := h
    rw [Module.constants_of_rename hRename] at hFound ⊢
    exact ⟨_, ⟨hFound, rfl⟩, Module.rename_withConstants.mpr ⟨renamed, hRename, rfl⟩⟩
  · intro h
    obtain ⟨_, ⟨hFound, rfl⟩, hNames⟩ := h
    obtain ⟨renamed, hRename, rfl⟩ := Module.rename_withConstants.mp hNames
    rw [← Module.constants_of_rename hRename] at hFound ⊢
    exact ⟨renamed, hRename, hFound, rfl⟩

/-- What is looked for second is found if and only if it was there at first. -/
theorem foldlM_replace_pair_eq_some {first second : PlannedPatch}
    (h : (replace first).Independent (replace second)) :
    [replace first, replace second].foldlM change module = some result ↔
      ((first.before ∈ module.constants.toList ∧ first.type.checkValue first.new = .ok ()) ∧
        second.before ∈ module.constants.toList ∧ second.type.checkValue second.new = .ok ()) ∧
      module.withConstants ((module.constants.toList.replace first.before first.after).replace
        second.before second.after) = result := by
  obtain ⟨hBefore, hAfter, -⟩ := h
  have hFound : second.before ∈ module.constants.toList.replace first.before first.after ↔
      second.before ∈ module.constants.toList := mem_replace_of_ne hBefore.symm hAfter.symm
  rw [foldlM_pair_eq_some]
  simp only [change_replace_eq_some]
  constructor
  · intro h
    obtain ⟨_, ⟨hFirst, rfl⟩, ⟨hSecond, hValid⟩, rfl⟩ := h
    exact ⟨⟨hFirst, hFound.mp hSecond, hValid⟩, rfl⟩
  · intro h
    obtain ⟨⟨hFirst, hSecond, hValid⟩, rfl⟩ := h
    exact ⟨_, ⟨hFirst, rfl⟩, ⟨hFound.mpr hSecond, hValid⟩, rfl⟩

/-- Of two independent replacements each finds its constant whether or not the other one was made
before. The constants that come out are the same. -/
theorem replace_replace_comm {first second : PlannedPatch}
    (h : (replace first).Independent (replace second)) :
    [replace first, replace second].foldlM change module =
      [replace second, replace first].foldlM change module := by
  apply Option.ext
  intro result
  rw [foldlM_replace_pair_eq_some h, foldlM_replace_pair_eq_some h.symm]
  obtain ⟨hBefore, hFirst, hSecond⟩ := h
  rw [replace_comm hBefore hFirst hSecond]
  exact and_congr_left fun _ => and_comm

/-- Four cases for two edits. Two changes of names are never independent. -/
theorem Independent.comm {first second : Edit} (h : first.Independent second) :
    [first, second].foldlM change module = [second, first].foldlM change module := by
  cases first with
  | rename pairs =>
      cases second with
      | rename _ => exact h.elim
      | replace patch => exact rename_replace_comm pairs patch
  | replace patch =>
      cases second with
      | rename pairs => exact (rename_replace_comm pairs patch).symm
      | replace other => exact replace_replace_comm h

/-- Of changes that are independent of each other, any two that follow each other may change
places, and so all of them may be made in any order. -/
theorem foldlM_change_perm {edits reordered : List Edit} (hOrder : edits.Perm reordered)
    (hIndependent : edits.Pairwise Independent) :
    edits.foldlM change module = reordered.foldlM change module := by
  induction hOrder generalizing module with
  | nil => rfl
  | cons edit _ ih =>
      rw [List.foldlM_cons, List.foldlM_cons]
      exact bind_congr fun changed => ih hIndependent.of_cons
  | swap first second rest =>
      have hPair := (List.pairwise_cons.mp hIndependent).1 first List.mem_cons_self
      change ([second, first] ++ rest).foldlM change module =
        ([first, second] ++ rest).foldlM change module
      rw [List.foldlM_append, List.foldlM_append, hPair.comm]
  | trans hFirst _ ihFirst ihSecond =>
      exact (ihFirst hIndependent).trans
        (ihSecond ((hFirst.pairwise_iff Independent.symm).mp hIndependent))

/-- A change of names and one of a constant give the same module in either order, or fail in
either. So do two changes of constants of different types, or of which neither expects the old or
the new bytes of the other, and a whole row of such changes in any order. -/
theorem independent_changes_commute (module : Module) :
    (∀ pairs patch, [rename pairs, replace patch].foldlM change module =
      [replace patch, rename pairs].foldlM change module) ∧
    (∀ first second : PlannedPatch,
      first.type ≠ second.type ∨ first.type = second.type ∧ first.expected ≠ second.expected ∧
          first.new ≠ second.expected ∧ second.new ≠ first.expected →
        [replace first, replace second].foldlM change module =
          [replace second, replace first].foldlM change module) ∧
    ∀ edits reordered : List Edit, edits.Perm reordered → edits.Pairwise Independent →
      edits.foldlM change module = reordered.foldlM change module := by
  refine ⟨rename_replace_comm, ?_, fun _ _ => foldlM_change_perm⟩
  intro first second h
  apply replace_replace_comm
  rw [independent_replace_iff]
  exact h.imp_right And.right

/-- A 7 and a 6 become other numbers in either order, and the name may be changed before, between
and behind. -/
theorem independent_changes_commute_repeat :
    let lowered : PlannedPatch := ⟨⟨"U8", [7], [1]⟩, .integer .w8⟩
    let raised : PlannedPatch := ⟨⟨"U8", [6], [9]⟩, .integer .w8⟩
    let changed := Module.repeatModule.withConstants
      [⟨.integer .w8, [1]⟩, ⟨.integer .w8, [9]⟩, ⟨.integer .w8, [6]⟩]
    [replace lowered, replace raised].foldlM change Module.repeatModule = some changed ∧
      [replace raised, replace lowered].foldlM change Module.repeatModule = some changed ∧
      [rename [("M", "Limits")], replace raised, replace lowered].foldlM change
          Module.repeatModule =
        [replace lowered, replace raised, rename [("M", "Limits")]].foldlM change
          Module.repeatModule := by
  intro lowered raised changed
  obtain ⟨-, hPatches, hRows⟩ := independent_changes_commute Module.repeatModule
  have hDone : [replace lowered, replace raised].foldlM change Module.repeatModule = some changed :=
    (foldlM_replace_pair_eq_some (by decide)).mpr ⟨⟨⟨by decide, rfl⟩, by decide, rfl⟩, rfl⟩
  refine ⟨hDone, ?_, hRows _ _ (List.reverse_perm _).symm (by decide)⟩
  rw [← hPatches lowered raised (.inr (by decide)), hDone]

end Template.Edit

end MoveModule
