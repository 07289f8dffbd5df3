import MoveModule.Proofs.Binary.Exact

/-! Readers for two versions. They go the same way as long as the version allows it. Where one of
them succeeds, the other one either gives the same or stops because of the version, and never for
another reason. What is put together from such readers is such a reader. -/
namespace MoveModule.Binary

namespace Read

/-- The input has something that the version does not have. -/
def Refuses {α : Type} (read : Read α) (version : UInt32) (cursor : Cursor) : Prop :=
  ∃ what place stop, read cursor = .error (.unsupportedInVersion what version place) stop

/-- Where the other read succeeds, this one for a version gives the same or refuses something
that the version does not have. -/
def Follows {α : Type} (version : UInt32) (read other : Read α) : Prop :=
  ∀ ⦃cursor next : Cursor⦄ ⦃value : α⦄, other cursor = .ok value next →
    read cursor = .ok value next ∨ read.Refuses version cursor

variable {α β : Type} {version : UInt32} {cursor : Cursor}

/-- What a version does not have stops everything that would have come after it. -/
theorem Refuses.bind {first : Read α} (h : first.Refuses version cursor) (second : α → Read β) :
    (first >>= second).Refuses version cursor := by
  obtain ⟨what, place, stop, hFirst⟩ := h
  exact ⟨what, place, stop, bind_of_eq_error hFirst⟩

/-- A read that does not look at the version goes the same way in all versions. -/
theorem Follows.refl (read : Read α) : Follows version read read :=
  fun _ _ _ h => .inl h

/-- Two reads in a row. The second pair is compared only for the value that both first reads gave,
since otherwise the version has stopped one of them. -/
theorem Follows.bind {first otherFirst : Read α} {second otherSecond : α → Read β}
    (hFirst : Follows version first otherFirst)
    (hSecond : ∀ value, Follows version (second value) (otherSecond value)) :
    Follows version (first >>= second) (otherFirst >>= otherSecond) := by
  intro cursor next result h
  obtain ⟨value, middle, hValue, hResult⟩ := bind_eq_ok.mp h
  rcases hFirst hValue with hSame | hRefuses
  · rcases hSecond value hResult with hRest | hRefuses
    · exact .inl (bind_eq_ok.mpr ⟨value, middle, hSame, hRest⟩)
    · obtain ⟨what, place, stop, hStop⟩ := hRefuses
      exact .inr ⟨what, place, stop, (bind_of_eq_ok hSame).trans hStop⟩
  · exact .inr (hRefuses.bind second)

/-- Something that not all versions have. Both reads go on in the same way if they are allowed
to. -/
theorem Follows.gate {allowed allowedOther : Bool} {what : String} {start : Nat}
    {read other : Read α} (error : DecodeError) (h : Follows version read other) :
    Follows version (if allowed then read else throw (.unsupportedInVersion what version start))
      (if allowedOther then other else throw error) := by
  intro cursor next value hOther
  -- The other read has succeeded, so it was allowed, whatever its error would have been.
  cases allowedOther with
  | false => simp at hOther
  | true =>
      cases allowed with
      | false => exact .inr ⟨what, start, cursor, rfl⟩
      | true => exact h hOther

/-- One item and then the rest, as two reads in a row. -/
theorem timesOnto_succ (read : Read α) (count : Nat) (sofar : List α) :
    timesOnto read (count + 1) sofar =
      read >>= fun item => timesOnto read count (item :: sofar) := by
  funext cursor
  change _ = EStateM.bind read _ cursor
  simp only [timesOnto, EStateM.bind]
  cases read cursor <;> rfl

/-- As long as there is more, one item and then the rest. Whether there is more depends on the place
alone, and so not on the version. -/
theorem everyOnto_succ (read : Read α) (limit : Nat) (sofar : Array α) (cursor : Cursor) :
    everyOnto read (limit + 1) sofar cursor =
      if cursor.hasMore then (read >>= fun item => everyOnto read limit (sofar.push item)) cursor
      else .ok sofar cursor := by
  change _ = if _ then EStateM.bind read _ cursor else _
  simp only [everyOnto, EStateM.bind]
  cases read cursor <;> rfl

/-- The induction is on the number of items, with the items read so far in the statement, because
both readers have the same ones as long as they agree. -/
theorem Follows.timesOnto {read other : Read α} (h : Follows version read other) (count : Nat)
    (sofar : List α) :
    Follows version (timesOnto read count sofar) (timesOnto other count sofar) := by
  induction count generalizing sofar with
  | zero => exact .refl _
  | succ count ih =>
      rw [timesOnto_succ, timesOnto_succ]
      exact h.bind fun item => ih (item :: sofar)

theorem Follows.times {read other : Read α} (h : Follows version read other) (count : Nat) :
    Follows version (times count read) (times count other) :=
  h.timesOnto count []

/-- Whether there is another item does not depend on the version. -/
theorem Follows.everyOnto {read other : Read α} (h : Follows version read other) (limit : Nat)
    (sofar : Array α) :
    Follows version (everyOnto read limit sofar) (everyOnto other limit sofar) := by
  induction limit generalizing sofar with
  | zero => exact .refl _
  | succ limit ih =>
      have hMore := h.bind fun item => ih (sofar.push item)
      intro cursor next items hItems
      simp only [Refuses, everyOnto_succ] at hItems ⊢
      by_cases hHas : cursor.hasMore = true
      · simp only [if_pos hHas] at hItems ⊢
        exact hMore hItems
      · simp only [if_neg hHas] at hItems ⊢
        exact .inl hItems

theorem Follows.every {read other : Read α} (h : Follows version read other) :
    Follows version (every read) (every other) :=
  fun cursor _ _ hItems => h.everyOnto cursor.remaining #[] hItems

end Read

namespace Codec

variable {α β : Type}

/-- The readers of a codec for any two versions differ in nothing but what the versions have. -/
def Gated (codec : Codec α) : Prop :=
  ∀ version other, Read.Follows version (codec.read version) (codec.read other)

namespace Gated

variable {codec : Codec α}

theorem map (hCodec : codec.Gated) (into : α → β) (back : β → α) : (codec.map into back).Gated :=
  fun version other => (hCodec version other).bind fun _ => .refl _

/-- A codec that is chosen by what stands before it. Both versions choose the same one, for the same
value. -/
theorem andThen (hCodec : codec.Gated) {second : α → Codec β}
    (hSecond : ∀ value, (second value).Gated) : (codec.andThen second).Gated :=
  fun version other => (hCodec version other).bind fun value =>
    (hSecond value version other).bind fun _ => .refl _

theorem pair (hCodec : codec.Gated) {second : Codec β} (hSecond : second.Gated) :
    (codec.pair second).Gated :=
  hCodec.andThen fun _ => hSecond

/-- What is left out is left out in both versions, since a flag in the bytes decides it. -/
theorem when (hCodec : codec.Gated) (present : Bool) : (codec.when present).Gated := by
  intro version other
  cases present with
  | false => exact .refl _
  | true => exact (hCodec version other).bind fun _ => .refl _

/-- The number of items in front of a list is read in the same way in all versions. -/
theorem list (hCodec : codec.Gated) : codec.list.Gated :=
  fun version other => Read.Follows.bind (.refl _) fun count => (hCodec version other).times count

end Gated

end Codec

end MoveModule.Binary
