import Mathlib.Data.List.Forall2
import Mathlib.Data.List.Induction
import MoveModule.Proofs.Module.Edit

/-! A change of names as a substitution. Every name of the old pool is looked up among the
pairs, the last of which counts, so that names can be exchanged and chains of pairs are not
followed. The change is refused for a new name that is none, and otherwise for the first name
that occurs again. -/
namespace MoveModule

/-- The grammar of names. A name starts with a letter, or with an underscore that is not all of
it, and goes on with letters, digits and underscores. -/
def IsName (text : String) : Prop :=
  ∃ first rest, text.toList = first :: rest ∧ (first.isAlpha = true ∨ first = '_' ∧ rest ≠ []) ∧
    ∀ c ∈ rest, c.isAlphanum = true ∨ c = '_'

/-- The check of names, said as a condition on their letters. -/
theorem isIdentifier_iff {text : String} : isIdentifier text = true ↔ IsName text := by
  cases hText : text.toList with
  | nil => simp [isIdentifier, IsName, hText]
  | cons first rest =>
      simp only [isIdentifier, IsName, hText, isIdentifierChar, List.cons.injEq, Bool.and_eq_true,
        Bool.or_eq_true, List.all_eq_true, beq_iff_eq, Bool.not_eq_true', List.isEmpty_eq_false_iff]
      constructor
      · intro h
        exact ⟨first, rest, ⟨rfl, rfl⟩, h⟩
      · intro h
        obtain ⟨_, _, ⟨rfl, rfl⟩, hGrammar⟩ := h
        exact hGrammar

theorem Identifier.isName (name : Identifier) : IsName name.text :=
  isIdentifier_iff.mp name.valid

theorem Identifier.exists_ofString?_eq {text : String} (h : IsName text) :
    ∃ name, ofString? text = some name :=
  ⟨⟨text, isIdentifier_iff.mpr h⟩, ofString?_eq_some.mpr rfl⟩

theorem Identifier.ofString?_eq_none {text : String} (h : ¬ IsName text) :
    ofString? text = none := by
  rw [← isIdentifier_iff] at h
  simp [ofString?, h]

/-- An entry that occurs again behind different ones is found. -/
theorem firstRepeat?_append_cons {α : Type} [DecidableEq α] {seen front back : List α} {entry : α}
    (hNodup : front.Nodup) (hNew : ∀ other ∈ front, other ∉ seen)
    (hEntry : entry ∈ front ∨ entry ∈ seen) :
    firstRepeat? seen (front ++ entry :: back) = some entry := by
  induction front generalizing seen with
  | nil =>
      have hSeen : entry ∈ seen := by simpa using hEntry
      rw [List.nil_append, firstRepeat?, if_pos hSeen]
  | cons head front ih =>
      obtain ⟨hHead, hNew⟩ := List.forall_mem_cons.mp hNew
      obtain ⟨hOnce, hNodup⟩ := List.nodup_cons.mp hNodup
      rw [List.cons_append, firstRepeat?, if_neg hHead]
      apply ih hNodup
      · intro other hOther
        rw [List.mem_cons, not_or]
        exact ⟨fun hSame => hOnce (hSame ▸ hOther), hNew other hOther⟩
      · rw [List.mem_cons] at hEntry ⊢
        tauto

/-- Where entries are not all different, there is a first one that occurs before. -/
theorem exists_append_cons_of_not_nodup {α : Type} {entries : List α} (h : ¬ entries.Nodup) :
    ∃ front entry back, entries = front ++ entry :: back ∧ front.Nodup ∧ entry ∈ front := by
  -- From the back, since what is found in the front stays the first.
  induction entries using List.reverseRecOn with
  | nil => exact absurd List.nodup_nil h
  | append_singleton rest last ih =>
      by_cases hRest : rest.Nodup
      · refine ⟨rest, last, [], rfl, hRest, ?_⟩
        by_contra hLast
        refine h (List.nodup_append.mpr ⟨hRest, List.pairwise_singleton _ last, ?_⟩)
        intro entry hEntry other hOther
        rw [List.mem_singleton.mp hOther]
        exact fun hSame => hLast (hSame ▸ hEntry)
      · obtain ⟨front, entry, back, rfl, hFront, hEntry⟩ := ih hRest
        exact ⟨front, entry, back ++ [last], by simp, hFront, hEntry⟩

namespace Renaming

/-- What a name becomes: the new name of the last pair for it, or what it is if there is none. -/
inductive Becomes (pairs : List (String × String)) (name : String) : String → Prop
  | changed {front back : List (String × String)} {new : String}
      (hPairs : pairs = front ++ (name, new) :: back) (hLast : ∀ pair ∈ back, pair.1 ≠ name) :
      Becomes pairs name new
  | kept (hNone : ∀ pair ∈ pairs, pair.1 ≠ name) : Becomes pairs name name

/-- The name is looked up from the last pair back. -/
def newName (pairs : List (String × String)) (name : String) : String :=
  (pairs.reverse.lookup name).getD name

section

variable {pairs : List (String × String)} {name new : String}

/-- The last pair for a name counts. -/
theorem newName_of_lookup (h : pairs.reverse.lookup name = some new) :
    newName pairs name = new := by
  rw [newName, h, Option.getD_some]

/-- A name that no pair speaks of stays. -/
theorem newName_eq_self (hNone : ∀ pair ∈ pairs, pair.1 ≠ name) : newName pairs name = name := by
  have hFound : pairs.reverse.lookup name = none := by
    refine List.lookup_eq_none_iff.mpr ?_
    intro pair hPair
    exact bne_iff_ne.mpr (hNone pair (List.mem_reverse.mp hPair)).symm
  rw [newName, hFound, Option.getD_none]

/-- Every name becomes something: what the last pair says, or itself. -/
theorem becomes_newName (pairs : List (String × String)) (name : String) :
    Becomes pairs name (newName pairs name) := by
  cases hFound : pairs.reverse.lookup name with
  | none =>
      have hNone (pair : String × String) (hPair : pair ∈ pairs) : pair.1 ≠ name := by
        have hOther := List.lookup_eq_none_iff.mp hFound pair (List.mem_reverse.mpr hPair)
        exact (bne_iff_ne.mp hOther).symm
      rw [newName_eq_self hNone]
      exact .kept hNone
  | some new =>
      obtain ⟨back, front, hPairs, hLast⟩ := List.lookup_eq_some_iff.mp hFound
      have hSplit : pairs = front.reverse ++ (name, new) :: back.reverse := by
        rw [List.reverse_eq_iff.mp hPairs]
        simp
      rw [newName_of_lookup hFound]
      refine .changed hSplit ?_
      intro pair hPair
      exact (bne_iff_ne.mp (hLast pair (List.mem_reverse.mp hPair))).symm

/-- A name becomes nothing else, so the relation is a function. -/
theorem becomes_iff : Becomes pairs name new ↔ newName pairs name = new := by
  constructor
  · intro h
    cases h with
    | kept hNone => exact newName_eq_self hNone
    | @changed front back _ hPairs hLast =>
        refine newName_of_lookup (List.lookup_eq_some_iff.mpr ⟨back.reverse, front.reverse, ?_, ?_⟩)
        · simp [hPairs]
        · intro pair hPair
          exact bne_iff_ne.mpr (hLast pair (List.mem_reverse.mp hPair)).symm
  · rintro rfl
    exact becomes_newName pairs name

/-- If there is one pair for each name at most, the order of the pairs does not matter. -/
theorem becomes_iff_of_nodup (hKeys : (pairs.map Prod.fst).Nodup) :
    Becomes pairs name new ↔
      (name, new) ∈ pairs ∨ (∀ pair ∈ pairs, pair.1 ≠ name) ∧ new = name := by
  constructor
  · intro h
    cases h with
    | kept hNone => exact .inr ⟨hNone, rfl⟩
    | changed hPairs _ => exact .inl (by simp [hPairs])
  · intro h
    rcases h with hPair | ⟨hNone, rfl⟩
    · obtain ⟨front, back, rfl⟩ := List.append_of_mem hPair
      refine .changed rfl ?_
      intro pair hBack hSame
      rw [List.map_append, List.map_cons, List.nodup_append, List.nodup_cons] at hKeys
      obtain ⟨-, ⟨hOnce, -⟩, -⟩ := hKeys
      exact hOnce (List.mem_map.mpr ⟨pair, hBack, hSame⟩)
    · exact .kept hNone

/-- If no name is changed twice, the order of the pairs does not matter. -/
theorem newName_perm {reordered : List (String × String)} (hKeys : (pairs.map Prod.fst).Nodup)
    (hOrder : reordered.Perm pairs) : newName reordered name = newName pairs name := by
  have hReordered : (reordered.map Prod.fst).Nodup := (hOrder.map Prod.fst).nodup_iff.mpr hKeys
  rw [← becomes_iff, becomes_iff_of_nodup hReordered]
  simp only [hOrder.mem_iff]
  exact (becomes_iff_of_nodup hKeys).mp (becomes_newName pairs name)

end

/-- The pairs are taken as they are if all new names are names. -/
theorem ofPairs_eq_ok {pairs : List (String × String)} {changes : Renaming} :
    ofPairs pairs = .ok changes ↔
      changes.map (fun change => (change.1, change.2.text)) = pairs := by
  induction pairs generalizing changes with
  | nil =>
      rw [ofPairs, List.mapM_nil, Except.pure_eq_ok, List.map_eq_nil_iff]
      exact eq_comm
  | cons pair rest ih =>
      obtain ⟨old, new⟩ := pair
      rw [ofPairs] at ih
      simp only [ofPairs, List.mapM_cons, Except.bind_eq_ok, Except.pure_eq_ok, ih,
        List.map_eq_cons_iff]
      constructor
      · intro h
        obtain ⟨change, hChange, later, hLater, rfl⟩ := h
        cases hName : Identifier.ofString? new with
        | none => simp [hName] at hChange
        | some name =>
            rw [hName, Except.ok.injEq] at hChange
            subst hChange
            refine ⟨_, later, rfl, ?_, hLater⟩
            rw [Identifier.ofString?_eq_some.mp hName]
      · intro h
        obtain ⟨change, later, rfl, hChange, hLater⟩ := h
        obtain ⟨rfl, rfl⟩ := Prod.mk.inj hChange
        refine ⟨change, ?_, later, hLater, rfl⟩
        rw [Identifier.ofString?_eq_some.mpr rfl]

/-- Pairs are taken if all new names are valid. -/
theorem exists_ofPairs_eq {pairs : List (String × String)}
    (hNames : ∀ pair ∈ pairs, IsName pair.2) : ∃ changes, ofPairs pairs = .ok changes := by
  have hChanges : ∃ changes : Renaming,
      changes.map (fun change => (change.1, change.2.text)) = pairs := by
    induction pairs with
    | nil => exact ⟨[], rfl⟩
    | cons pair rest ih =>
        obtain ⟨hName, hNames⟩ := List.forall_mem_cons.mp hNames
        obtain ⟨changes, rfl⟩ := ih hNames
        exact ⟨(pair.1, ⟨pair.2, isIdentifier_iff.mpr hName⟩) :: changes, rfl⟩
  obtain ⟨changes, hPairs⟩ := hChanges
  exact ⟨changes, ofPairs_eq_ok.mpr hPairs⟩

theorem isName_of_ofPairs {pairs : List (String × String)} {changes : Renaming}
    (h : ofPairs pairs = .ok changes) : ∀ pair ∈ pairs, IsName pair.2 := by
  rw [ofPairs_eq_ok] at h
  subst h
  intro pair hPair
  obtain ⟨change, -, rfl⟩ := List.mem_map.mp hPair
  exact change.2.isName

/-- The first new name that is none is reported. -/
theorem ofPairs_append_cons {front back : List (String × String)} {old new : String}
    (hFront : ∀ pair ∈ front, IsName pair.2) (hNew : ¬ IsName new) :
    ofPairs (front ++ (old, new) :: back) = .error (.invalidIdentifier old new) := by
  induction front with
  | nil =>
      simp only [List.nil_append, ofPairs, List.mapM_cons, Identifier.ofString?_eq_none hNew]
      rfl
  | cons pair rest ih =>
      obtain ⟨hName, hRest⟩ := List.forall_mem_cons.mp hFront
      obtain ⟨name, hGiven⟩ := Identifier.exists_ofString?_eq hName
      have hLater := ih hRest
      rw [ofPairs] at hLater
      simp only [List.cons_append, ofPairs, List.mapM_cons, hGiven, hLater]
      rfl

/-- What was made from the pairs changes each name as they say. -/
theorem text_apply {pairs : List (String × String)} {changes : Renaming}
    (h : ofPairs pairs = .ok changes) (name : Identifier) :
    (changes.apply name).text = newName pairs name.text := by
  have hLookup (later : Renaming) :
      (later.map fun change => (change.1, change.2.text)).lookup name.text =
        (later.lookup name.text).map Identifier.text := by
    induction later with
    | nil => rfl
    | cons change rest ih =>
        rw [List.map_cons, List.lookup_cons, List.lookup_cons]
        cases name.text == change.1 with
        | true => rfl
        | false => exact ih
  rw [ofPairs_eq_ok] at h
  subst h
  rw [newName, ← List.map_reverse, hLookup, apply]
  cases changes.reverse.lookup name.text with
  | none => rfl
  | some new => rfl

/-- The names of a table become others if and only if these are the changed names, in the same
order. -/
theorem forall₂_becomes_iff {pairs : List (String × String)} {changes : Renaming}
    (h : ofPairs pairs = .ok changes) {names new : List Identifier} :
    List.Forall₂ (fun old new => Becomes pairs old.text new.text) names new ↔
      names.map changes.apply = new := by
  have hText (name other : Identifier) : name.text = other.text ↔ name = other := by
    rw [Identifier.mk.injEq]
  simp only [becomes_iff, ← text_apply h, hText]
  rw [← List.forall₂_eq_eq_eq, List.forall₂_map_left_iff]

end Renaming

namespace Module

variable {module : Module} {pairs : List (String × String)} {changes : Renaming}

theorem rename_of_nodup (hChanges : Renaming.ofPairs pairs = .ok changes)
    (hNodup : (module.identifiers.toList.map changes.apply).Nodup) :
    module.rename pairs =
      .ok { module with identifiers := (module.identifiers.toList.map changes.apply).toArray } := by
  have hNames : module.identifiers.map changes.apply =
      (module.identifiers.toList.map changes.apply).toArray := by
    rw [← List.map_toArray]
  rw [← hNames]
  refine rename_eq_ok.mpr ⟨changes, hChanges, ?_, rfl⟩
  rwa [Array.toList_map]

/-- The first name that was there before is the one that is reported. -/
theorem rename_of_repeat (hChanges : Renaming.ofPairs pairs = .ok changes)
    {front back : List Identifier} {name : Identifier}
    (hNames : module.identifiers.toList.map changes.apply = front ++ name :: back)
    (hFront : front.Nodup) (hName : name ∈ front) :
    module.rename pairs = .error (.duplicateIdentifier name) := by
  have hRepeat : firstRepeat? [] (module.identifiers.map changes.apply).toList = some name := by
    rw [Array.toList_map, hNames]
    exact firstRepeat?_append_cons hFront (by simp) (.inl hName)
  rw [rename, hChanges, Except.ok_bind]
  simp only [hRepeat]

/-- This is the first name that the pairs make of one name and of an earlier one. -/
def Repeats (module : Module) (pairs : List (String × String)) (name : Identifier) : Prop :=
  ∃ front back, List.Forall₂ (fun old new => Renaming.Becomes pairs old.text new.text)
      module.identifiers.toList (front ++ name :: back) ∧
    front.Nodup ∧ name ∈ front

/-- If all new names are names, the only reason to refuse them is that one is there already. -/
theorem rename_eq_error (hPairs : ∀ pair ∈ pairs, IsName pair.2) {error : RenameError} :
    module.rename pairs = .error error ↔
      ∃ name, module.Repeats pairs name ∧ .duplicateIdentifier name = error := by
  obtain ⟨changes, hChanges⟩ := Renaming.exists_ofPairs_eq hPairs
  simp only [Repeats, Renaming.forall₂_becomes_iff hChanges]
  constructor
  · intro h
    have hRepeat : ¬ (module.identifiers.toList.map changes.apply).Nodup := by
      intro hNodup
      rw [rename_of_nodup hChanges hNodup] at h
      cases h
    obtain ⟨front, name, back, hNames, hFront, hName⟩ := exists_append_cons_of_not_nodup hRepeat
    rw [rename_of_repeat hChanges hNames hFront hName, Except.error.injEq] at h
    exact ⟨name, ⟨front, back, hNames, hFront, hName⟩, h⟩
  · rintro ⟨name, ⟨front, back, hNames, hFront, hName⟩, rfl⟩
    exact rename_of_repeat hChanges hNames hFront hName

/-- Names are changed all at once, each into what the pairs make of it. The first new name that
is none is refused, whether or not the name it is for occurs. After that the first name is
refused that is there already. Nothing but names is changed. -/
theorem rename_substitutes (module : Module) (pairs : List (String × String)) :
    (∀ front old new back, pairs = front ++ (old, new) :: back →
      (∀ pair ∈ front, IsName pair.2) → ¬ IsName new →
        module.rename pairs = .error (.invalidIdentifier old new)) ∧
    ((∀ pair ∈ pairs, IsName pair.2) → ∃ names : List Identifier,
      List.Forall₂ (fun name new => Renaming.Becomes pairs name.text new.text)
        module.identifiers.toList names ∧
      (∀ front name back, names = front ++ name :: back → front.Nodup → name ∈ front →
        module.rename pairs = .error (.duplicateIdentifier name)) ∧
      (names.Nodup → module.rename pairs = .ok { module with identifiers := names.toArray })) ∧
    ∀ reordered result, (pairs.map Prod.fst).Nodup → reordered.Perm pairs →
      module.rename pairs = .ok result → module.rename reordered = .ok result := by
  refine ⟨?_, ?_, ?_⟩
  · intro front old new back hPairs hFront hNew
    rw [rename, hPairs, Renaming.ofPairs_append_cons hFront hNew]
    rfl
  · intro hNames
    obtain ⟨changes, hChanges⟩ := Renaming.exists_ofPairs_eq hNames
    refine ⟨module.identifiers.toList.map changes.apply, ?_, ?_, ?_⟩
    · rw [List.forall₂_map_right_iff, List.forall₂_same]
      intro name _
      rw [Renaming.becomes_iff, Renaming.text_apply hChanges]
    · intro front name back hSplit hFront hName
      exact rename_of_repeat hChanges hSplit hFront hName
    · intro hNodup
      exact rename_of_nodup hChanges hNodup
  · intro reordered result hKeys hOrder hRename
    obtain ⟨changes, hChanges, hNodup, rfl⟩ := rename_eq_ok.mp hRename
    have hNames (pair : String × String) (hPair : pair ∈ reordered) : IsName pair.2 :=
      Renaming.isName_of_ofPairs hChanges pair (hOrder.mem_iff.mp hPair)
    obtain ⟨others, hOthers⟩ := Renaming.exists_ofPairs_eq hNames
    have hSame : others.apply = changes.apply := by
      funext name
      rw [Identifier.mk.injEq, Renaming.text_apply hOthers, Renaming.text_apply hChanges,
        Renaming.newName_perm hKeys hOrder]
    exact rename_eq_ok.mpr ⟨others, hOthers, hSame ▸ hNodup, by rw [hSame]⟩

/-- A module with two names. -/
def pairModule : Module :=
  { empty 6 with identifiers := #[⟨"count", rfl⟩, ⟨"limit", rfl⟩] }

/-- The two names of the module become what is looked up for them. -/
theorem eq_pair_of_becomes {pairs : List (String × String)} {names : List Identifier}
    (h : List.Forall₂ (fun name new => Renaming.Becomes pairs name.text new.text)
      pairModule.identifiers.toList names) {first second : Identifier}
    (hFirst : Renaming.newName pairs "count" = first.text)
    (hSecond : Renaming.newName pairs "limit" = second.text) : names = [first, second] := by
  obtain ⟨new, _, hNew, hRest, rfl⟩ := List.forall₂_cons_left_iff.mp h
  obtain ⟨later, _, hLater, hNone, rfl⟩ := List.forall₂_cons_left_iff.mp hRest
  obtain rfl := List.forall₂_nil_left_iff.mp hNone
  rw [Renaming.becomes_iff] at hNew hLater
  rw [List.cons.injEq, List.cons.injEq, Identifier.mk.injEq, Identifier.mk.injEq]
  exact ⟨hNew.symm.trans hFirst, hLater.symm.trans hSecond, rfl⟩

/-- Two names are exchanged by two pairs in any order. One of the pairs alone is refused, and
so is a pair for a name that does not occur. -/
theorem rename_substitutes_exchange :
    let exchanged := { pairModule with identifiers := #[⟨"limit", rfl⟩, ⟨"count", rfl⟩] }
    pairModule.rename [("count", "limit"), ("limit", "count")] = .ok exchanged ∧
      pairModule.rename [("limit", "count"), ("count", "limit")] = .ok exchanged ∧
      pairModule.rename [("count", "limit")] = .error (.duplicateIdentifier ⟨"limit", rfl⟩) ∧
      pairModule.rename [("count", "limit"), ("absent", "1x")] =
        .error (.invalidIdentifier "absent" "1x") := by
  intro exchanged
  have hName {pairs : List (String × String)} (h : ∀ pair ∈ pairs, isIdentifier pair.2 = true) :
      ∀ pair ∈ pairs, IsName pair.2 :=
    fun pair hPair => isIdentifier_iff.mp (h pair hPair)
  have hNot : ¬ IsName "1x" := by
    rw [← isIdentifier_iff]
    decide
  obtain ⟨-, hBoth, hOrder⟩ :=
    rename_substitutes pairModule [("count", "limit"), ("limit", "count")]
  obtain ⟨-, hOne, -⟩ := rename_substitutes pairModule [("count", "limit")]
  obtain ⟨hInvalid, -, -⟩ := rename_substitutes pairModule [("count", "limit"), ("absent", "1x")]
  have hExchanged : pairModule.rename [("count", "limit"), ("limit", "count")] = .ok exchanged := by
    obtain ⟨names, hNames, -, hOk⟩ := hBoth (hName (by decide))
    obtain rfl : names = [⟨"limit", rfl⟩, ⟨"count", rfl⟩] := eq_pair_of_becomes hNames rfl rfl
    exact hOk (by decide)
  refine ⟨hExchanged, ?_, ?_, ?_⟩
  · exact hOrder _ _ (by decide) (List.Perm.swap _ _ _) hExchanged
  · obtain ⟨names, hNames, hRepeat, -⟩ := hOne (hName (by decide))
    obtain rfl : names = [⟨"limit", rfl⟩, ⟨"limit", rfl⟩] := eq_pair_of_becomes hNames rfl rfl
    exact hRepeat [⟨"limit", rfl⟩] ⟨"limit", rfl⟩ [] rfl (by decide) (by decide)
  · exact hInvalid [("count", "limit")] "absent" "1x" [] rfl (hName (by decide)) hNot

end Module

end MoveModule
