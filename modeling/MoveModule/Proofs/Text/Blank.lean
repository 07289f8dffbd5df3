import Mathlib.Data.List.DropRight
import MoveModule.Text.Blank

/-! Blanks around a text, and what is left when they or brackets are taken away. -/
namespace MoveModule.Text

/-- The text is `core` with blanks around it, or `core` alone. -/
def Padded (core text : List Char) : Prop :=
  ∃ before after : List Char, (∀ c ∈ before, isBlank c = true) ∧ (∀ c ∈ after, isBlank c = true) ∧
    before ++ core ++ after = text

/-- There is a character at either end of the text, and it is no blank. -/
def Tight (text : List Char) : Prop :=
  (∃ first ∈ text.head?, isBlank first = false) ∧ ∃ last ∈ text.getLast?, isBlank last = false

instance (text : List Char) : Decidable (Tight text) :=
  decidable_of_iff
    ((text.head?.any fun c => !isBlank c) = true ∧ (text.getLast?.any fun c => !isBlank c) = true)
    (by simp [Tight, Option.any_eq_true])

theorem Padded.refl (text : List Char) : Padded text text :=
  ⟨[], [], by simp, by simp, by simp⟩

/-- What stands inside is of no matter. -/
theorem Tight.append {opening closing : List Char} (hOpening : Tight opening)
    (hClosing : Tight closing) (item : List Char) : Tight (opening ++ item ++ closing) := by
  obtain ⟨⟨first, hFirst, hFirstBlank⟩, -⟩ := hOpening
  obtain ⟨-, last, hLast, hLastBlank⟩ := hClosing
  refine ⟨⟨first, ?_, hFirstBlank⟩, last, ?_, hLastBlank⟩
  · rw [List.append_assoc]
    exact List.mem_head?_append_of_mem_head? hFirst
  · exact List.mem_getLast?_append_of_mem_getLast? hLast

/-- Dropping blanks stops at the first character that is none. -/
theorem dropWhile_of_head? {text : List Char} {first : Char} (hFirst : first ∈ text.head?)
    (hBlank : isBlank first = false) {before : List Char}
    (hBefore : ∀ c ∈ before, isBlank c = true) : (before ++ text).dropWhile isBlank = text := by
  obtain ⟨rest, rfl⟩ := List.head?_eq_some_iff.mp hFirst
  rw [List.dropWhile_append_of_pos hBefore, List.dropWhile_cons_of_neg (by simp [hBlank])]

/-- Only blanks are cut off. -/
theorem padded_trim (text : List Char) : Padded (trim text) text := by
  let front := text.dropWhile isBlank
  have hFront : text.takeWhile isBlank ++ front = text := List.takeWhile_append_dropWhile
  have hBack : trim text ++ front.rtakeWhile isBlank = front :=
    List.rdropWhile_append_rtakeWhile
  refine ⟨text.takeWhile isBlank, front.rtakeWhile isBlank, ?_, ?_, ?_⟩
  · exact fun _ => List.mem_takeWhile_imp
  · exact fun _ => List.mem_rtakeWhile_imp
  · rw [List.append_assoc, hBack, hFront]

/-- All blanks are cut off. -/
theorem Padded.trim_eq {core text : List Char} (h : Padded core text) (hTight : Tight core) :
    trim text = core := by
  obtain ⟨before, after, hBefore, hAfter, rfl⟩ := h
  obtain ⟨⟨first, hFirst, hFirstBlank⟩, last, hLast, hLastBlank⟩ := hTight
  have hFront : (before ++ core ++ after).dropWhile isBlank = core ++ after := by
    rw [List.append_assoc]
    exact dropWhile_of_head? (List.mem_head?_append_of_mem_head? hFirst) hFirstBlank hBefore
  rw [← List.head?_reverse] at hLast
  have hBack : (after.reverse ++ core.reverse).dropWhile isBlank = core.reverse :=
    dropWhile_of_head? hLast hLastBlank fun c hMem => hAfter c (List.mem_reverse.mp hMem)
  rw [trim, hFront, List.reverse_append, hBack, List.reverse_reverse]

/-- What is between two texts is found if they do not overlap, and what is found is all of it. -/
theorem unwrap?_eq_some {before after text item : List Char} :
    unwrap? before after text = some item ↔ before ++ item ++ after = text := by
  have hSuffix {rest : List Char} :
      (after.reverse.isPrefixOf? rest.reverse).map List.reverse = some item ↔
        item ++ after = rest := by
    simp only [Option.map_eq_some_iff, List.isPrefixOf?_eq_some_iff_append_eq]
    constructor
    · rintro ⟨back, hRest, rfl⟩
      rw [← List.reverse_inj, ← hRest]
      simp
    · rintro rfl
      exact ⟨item.reverse, by simp, by simp⟩
  rw [unwrap?]
  cases hPrefix : List.isPrefixOf? before text with
  | none =>
      simp only [reduceCtorEq, false_iff]
      rintro rfl
      rw [List.append_assoc, List.isPrefixOf?_eq_some_iff_append_eq.mpr rfl] at hPrefix
      cases hPrefix
  | some rest =>
      obtain rfl := List.isPrefixOf?_eq_some_iff_append_eq.mp hPrefix
      dsimp only
      rw [hSuffix, List.append_assoc, List.append_cancel_left_eq]

/-- A letter that has a capital is the small letter of it. -/
theorem toLower_toUpper {c : Char} (h : c.toUpper ≠ c) : c.toUpper.toLower = c := by
  by_cases hSmall : 'a'.val ≤ c.val ∧ c.val ≤ 'z'.val
  · have hUpper : c.toUpper.val = c.val + ('A'.val - 'a'.val) := by
      delta Char.toUpper
      rw [dif_pos hSmall]
    have hLarge : 'A'.val ≤ c.toUpper.val ∧ c.toUpper.val ≤ 'Z'.val := by grind
    have hLower : c.toUpper.toLower.val = c.toUpper.val + ('a'.val - 'A'.val) := by
      delta Char.toLower
      rw [dif_pos hLarge]
    exact Char.ext (by grind)
  · exact absurd (dif_neg hSmall) h

end MoveModule.Text
