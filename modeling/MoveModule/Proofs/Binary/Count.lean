import MoveModule.Proofs.Binary.Read

/-! Counts in input that is not trusted. A count says how many items follow, and each of them
takes a byte or more. It is checked before the items are read, and against a bound that is taken
before the count itself is read. The bound leaves one byte for the count, which may take ten. -/
namespace MoveModule.Binary

/-- A number is not smaller than the number of its groups, up to the last one. -/
theorem Uleb128.length_encode_le_succ (n : Nat) : (encode n).length ≤ n + 1 := by
  induction n using Nat.strongRecOn with
  | ind n ih =>
      rcases Nat.lt_or_ge n 128 with hSmall | hLarge
      · rw [encode_of_lt hSmall, List.length_singleton]
        omega
      · have hHigh := ih (n / 128) (by omega)
        rw [encode_of_le hLarge, List.length_cons]
        omega

namespace Read

variable {cursor next : Cursor} {n : Nat}

/-- The bound on a count in terms of the bytes behind it: the items may be more than these, by
the bytes of the count without the first one. -/
theorem count_eq_ok_iff_behind :
    count cursor = .ok n next ↔
      n < UInt64.size ∧ Uleb128.encode n <+: cursor.rest ∧
        next = cursor.advance (Uleb128.encode n).length ∧
        n ≤ next.remaining + ((Uleb128.encode n).length - 1) := by
  have hWidth := Uleb128.length_encode_pos n
  rw [count_eq_ok]
  constructor
  · rintro ⟨hBound, hSize, hBytes, rfl⟩
    have hInside := Cursor.length_le_remaining hBytes
    rw [Cursor.remaining_advance]
    exact ⟨hSize, hBytes, rfl, by omega⟩
  · rintro ⟨hSize, hBytes, rfl, hBound⟩
    have hInside := Cursor.length_le_remaining hBytes
    rw [Cursor.remaining_advance] at hBound
    exact ⟨by omega, hSize, hBytes, rfl⟩

/-- A count is one of the bytes that remain before it, so that there are never more items than
bytes of input. -/
theorem count_le_remaining (h : count cursor = .ok n next) : n ≤ cursor.remaining := by
  obtain ⟨hBound, -⟩ := count_eq_ok.mp h
  omega

/-- A count of one byte leaves a byte for each item. -/
theorem count_le_behind (h : count cursor = .ok n next) (hSmall : n < 128) :
    n ≤ next.remaining := by
  obtain ⟨-, -, -, hBound⟩ := count_eq_ok_iff_behind.mp h
  rw [Uleb128.encode_of_lt hSmall] at hBound
  exact hBound

/-- A count in front of a byte for each item is not refused. -/
theorem count_of_enough (hSize : n < UInt64.size) (hBytes : Uleb128.encode n <+: cursor.rest)
    (hBehind : n ≤ (cursor.advance (Uleb128.encode n).length).remaining) :
    count cursor = .ok n (cursor.advance (Uleb128.encode n).length) :=
  count_eq_ok_iff_behind.mpr
    ⟨hSize, hBytes, rfl, Nat.le_trans hBehind (Nat.le_add_right _ _)⟩

/-- Input that has only a count and as few bytes behind it as the bound lets through. -/
def scant (n : Nat) : Cursor :=
  .ofBytes (Uleb128.encode n ++ List.replicate (n + 1 - (Uleb128.encode n).length) 0)

/-- Every count can lack all of its own bytes but one behind it. -/
theorem count_scant (hSize : n < UInt64.size) :
    ∃ next, count (scant n) = .ok n next ∧
      next.remaining + ((Uleb128.encode n).length - 1) = n := by
  have hWidth := Uleb128.length_encode_pos n
  have hFew := Uleb128.length_encode_le_succ n
  have hBytes : Uleb128.encode n <+: (scant n).rest := by
    rw [scant, Cursor.rest_ofBytes]
    exact List.prefix_append _ _
  have hBehind : ((scant n).advance (Uleb128.encode n).length).remaining =
      n + 1 - (Uleb128.encode n).length := by
    rw [← Cursor.length_rest, Cursor.rest_advance, scant, Cursor.rest_ofBytes, List.drop_left,
      List.length_replicate]
  refine ⟨_, count_eq_ok_iff_behind.mpr ⟨hSize, hBytes, rfl, ?_⟩, ?_⟩
  · rw [hBehind]
    omega
  · rw [hBehind]
    omega

/-- A count is bounded by the input that follows, up to its own bytes. -/
theorem count_bounded_by_input (cursor : Cursor) :
    (∀ n next, count cursor = .ok n next ↔
        n < UInt64.size ∧ Uleb128.encode n <+: cursor.rest ∧
          next = cursor.advance (Uleb128.encode n).length ∧
          n ≤ next.remaining + ((Uleb128.encode n).length - 1)) ∧
      (∀ n next, count cursor = .ok n next →
        n ≤ cursor.remaining ∧ (n < 128 → n ≤ next.remaining)) ∧
      (∀ n, n < UInt64.size → Uleb128.encode n <+: cursor.rest →
        n ≤ (cursor.advance (Uleb128.encode n).length).remaining →
        count cursor = .ok n (cursor.advance (Uleb128.encode n).length)) ∧
      ∀ n, 128 ≤ n → n < UInt64.size →
        ∃ next, count (scant n) = .ok n next ∧ next.remaining < n := by
  refine ⟨fun _ _ => count_eq_ok_iff_behind,
    fun _ _ h => ⟨count_le_remaining h, count_le_behind h⟩,
    fun _ hSize hBytes hBehind => count_of_enough hSize hBytes hBehind, ?_⟩
  intro n hLarge hSize
  obtain ⟨next, hCount, hLacking⟩ := count_scant hSize
  have hHigh := Uleb128.length_encode_pos (n / 128)
  rw [Uleb128.encode_of_le hLarge, List.length_cons] at hLacking
  exact ⟨next, hCount, by omega⟩

end Read

end MoveModule.Binary
