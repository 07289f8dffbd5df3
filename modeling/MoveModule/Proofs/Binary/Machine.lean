import MoveModule.Proofs.Binary.Number

/-! Reads on a machine. What a machine does with words and slices is compared with the same read on
numbers and lists. Each read keeps to this by itself, from wherever the cursor stands: as long as
the places it comes by are words, it gives the same value or the same error. -/
namespace MoveModule.Binary

namespace Read

/-- Where a result leaves the cursor. -/
def left {ε α : Type} : EStateM.Result ε Cursor α → Cursor
  | .ok _ next => next
  | .error _ next => next

section

variable {ε δ α β : Type} {f : ε → δ} {cursor : Cursor}

/-- One read after another does the same as two others if each of them does. -/
theorem mapError_bind {first : ReadOr δ α} {firstRead : ReadOr ε α} {second : α → ReadOr δ β}
    {secondRead : α → ReadOr ε β} (hFirst : first cursor = mapError f firstRead cursor)
    (hSecond : ∀ value next, firstRead cursor = .ok value next →
      second value next = mapError f (secondRead value) next) :
    (first >>= second) cursor = mapError f (firstRead >>= secondRead) cursor := by
  rw [mapError] at hFirst ⊢
  cases hRead : firstRead cursor with
  | error error next =>
      rw [hRead] at hFirst
      rw [bind_of_eq_error hFirst, bind_of_eq_error hRead]
  | ok value next =>
      rw [hRead] at hFirst
      rw [bind_of_eq_ok hFirst, bind_of_eq_ok hRead, hSecond value next hRead, mapError]

/-- Two reads are given up under the same condition. -/
theorem mapError_guard {condition : Prop} [Decidable condition] {error : ε}
    {rest : Unit → ReadOr δ α} {restRead : Unit → ReadOr ε α}
    (hRest : ¬ condition → rest () cursor = mapError f (restRead ()) cursor) :
    (if condition then MonadExcept.throw (f error) >>= rest else rest ()) cursor =
      mapError f (if condition then MonadExcept.throw error >>= restRead else restRead ())
        cursor := by
  by_cases h : condition
  · rw [if_pos h, if_pos h]
    rfl
  · rw [if_neg h, if_neg h]
    exact hRest h

end

end Read

namespace Machine

open Read (left mapError bind_of_eq_ok bind_of_eq_error)

section

variable {ε α β : Type}

/-- From the cursor the machine does what the read does, as long as the places that the read comes
by are words. A read does not go back, so that these are words if the last one is. -/
structure Agrees (run : Run ε α) (read : ReadOr ε α) (cursor : Cursor) : Prop where
  forward : ∃ count, left (read cursor) = cursor.advance count
  same : (left (read cursor)).offset < UInt64.size → run cursor = mapError .refusal read cursor

/-- A sum below 2^64 is added without a fault. -/
theorem add_of_lt {first second : Nat} (h : first + second < UInt64.size) :
    (add first second : Run ε Nat) = pure (first + second) :=
  if_pos h

/-- What is checked and passes is given as it is. -/
theorem eq_of_checked_eq_ok {condition : Prop} [Decidable condition] {given value : α}
    {fault : Fault} {cursor next : Cursor}
    (h : (if condition then pure given else throw (.fault fault) : Run ε α) cursor =
      .ok value next) :
    given = value ∧ cursor = next := by
  rcases Read.ite_eq_ok.mp h with ⟨-, hGiven⟩ | ⟨-, hThrow⟩
  · exact Read.pure_eq_ok.mp hGiven
  · exact absurd hThrow nofun

namespace Agrees

variable {run : Run ε α} {read : ReadOr ε α} {cursor : Cursor}

/-- The place of the cursor is a word if the read stays among words. -/
theorem offset_lt (h : Agrees run read cursor)
    (hLeft : (left (read cursor)).offset < UInt64.size) : cursor.offset < UInt64.size := by
  obtain ⟨count, hCount⟩ := h.forward
  rw [hCount, Cursor.offset_advance] at hLeft
  exact Nat.lt_of_le_of_lt (Nat.le_add_right _ _) hLeft

/-- What a machine does depends on the read only through its result from where the cursor stands. -/
theorem congr {other : ReadOr ε α} (h : Agrees run read cursor)
    (hOther : other cursor = read cursor) : Agrees run other cursor where
  forward := hOther ▸ h.forward
  same hLeft := by
    rw [hOther] at hLeft
    rw [h.same hLeft, mapError, mapError, hOther]

theorem pure (value : α) :
    Agrees (ε := ε) (Pure.pure value) (Pure.pure value) cursor where
  forward := ⟨0, rfl⟩
  same _ := rfl

/-- An error of the format is no fault. Both give it at the same place. -/
theorem throw (error : ε) :
    Agrees (α := α) (MonadExcept.throw (.refusal error)) (MonadExcept.throw error) cursor where
  forward := ⟨0, rfl⟩
  same _ := rfl

/-- The second read starts where the first one stopped. -/
theorem bind {second : α → Run ε β} {secondRead : α → ReadOr ε β} (h : Agrees run read cursor)
    (hSecond : ∀ value next, read cursor = .ok value next →
      Agrees (second value) (secondRead value) next) :
    Agrees (run >>= second) (read >>= secondRead) cursor := by
  obtain ⟨count, hCount⟩ := h.forward
  cases hRead : read cursor with
  | error error next =>
      have hBoth : (read >>= secondRead) cursor = .error error next := bind_of_eq_error hRead
      rw [hRead] at hCount
      refine ⟨⟨count, by rw [hBoth]; exact hCount⟩, fun hLeft => ?_⟩
      rw [hBoth] at hLeft
      refine Read.mapError_bind (h.same (by rw [hRead]; exact hLeft)) fun _ _ hOk => ?_
      exact nomatch hRead.symm.trans hOk
  | ok value next =>
      have hBoth : (read >>= secondRead) cursor = secondRead value next := bind_of_eq_ok hRead
      have hRest := hSecond value next hRead
      obtain ⟨more, hMore⟩ := hRest.forward
      rw [hRead] at hCount
      obtain rfl : next = cursor.advance count := hCount
      refine ⟨⟨count + more, by rw [hBoth, hMore, Cursor.advance_advance]⟩, fun hLeft => ?_⟩
      rw [hBoth] at hLeft
      have hNext := hRest.offset_lt hLeft
      refine Read.mapError_bind (h.same (by rw [hRead]; exact hNext)) fun _ _ hOk => ?_
      obtain ⟨rfl, rfl⟩ := EStateM.Result.ok.inj (hRead.symm.trans hOk)
      exact hRest.same hLeft

/-- The value of a read in another guise. -/
theorem map {f : α → β} (h : Agrees run read cursor) :
    Agrees (run >>= fun value => Pure.pure (f value)) (read >>= fun value => Pure.pure (f value))
      cursor :=
  h.bind fun value _ _ => .pure (f value)

/-- A read that is given up under a condition. -/
theorem guard {condition : Prop} [Decidable condition] {error : ε} {rest : Unit → Run ε α}
    {restRead : Unit → ReadOr ε α}
    (hRest : ¬ condition → Agrees (rest ()) (restRead ()) cursor) :
    Agrees (if condition then MonadExcept.throw (.refusal error) >>= rest else rest ())
      (if condition then MonadExcept.throw error >>= restRead else restRead ()) cursor := by
  split
  case isTrue => exact bind (throw error) fun _ _ hOk => nomatch hOk
  case isFalse h => exact hRest h

end Agrees

end

section Reads

variable {α : Type} {cursor : Cursor}

/-- A place that is a word is told without a fault. -/
theorem offset_of_lt (h : cursor.offset < UInt64.size) :
    offset cursor = .ok cursor.offset cursor := by
  change add cursor.base cursor.position cursor = _
  rw [add_of_lt h]
  rfl

theorem agrees_offset : Agrees offset Read.offset cursor where
  forward := ⟨0, rfl⟩
  same hLeft := offset_of_lt hLeft

/-- What is done with the cursor, of which a read only sees how many bytes are left. -/
theorem Agrees.remaining_bind {second : Cursor → Run DecodeError α} {secondRead : Nat → Read α}
    (h : Agrees (second cursor) (secondRead cursor.remaining) cursor) :
    Agrees (get >>= second) (Read.remaining >>= secondRead) cursor where
  forward := h.forward
  same := h.same

/-- A byte is taken from the slice if the place is inside of it, so the slice is never asked for a
byte that it does not have. -/
theorem agrees_byte : Agrees byte Read.byte cursor := by
  cases hByte : cursor.bytes[cursor.position]? with
  | none =>
      have hRead : Read.byte cursor = .error (.unexpectedEnd cursor.offset) cursor := by
        rw [Read.byte, hByte]
      refine ⟨⟨0, by rw [hRead]; rfl⟩, fun hLeft => ?_⟩
      rw [hRead] at hLeft
      have hHere : cursor.offset < UInt64.size := hLeft
      rw [byte, Read.get_bind, bind_of_eq_ok (offset_of_lt hHere), hByte, mapError, hRead]
      rfl
  | some value =>
      have hRead : Read.byte cursor = .ok value (cursor.advance 1) := by
        rw [Read.byte, hByte]
      refine ⟨⟨1, by rw [hRead]; rfl⟩, fun hLeft => ?_⟩
      rw [hRead] at hLeft
      have hNext : cursor.base + (cursor.position + 1) < UInt64.size := hLeft
      have hHere : cursor.offset < UInt64.size := by
        rw [Cursor.offset]
        omega
      rw [byte, Read.get_bind, bind_of_eq_ok (offset_of_lt hHere), hByte, mapError, hRead,
        add_of_lt (by omega)]
      rfl

/-- A slice of some bytes lies inside the bytes, or else there are not enough of them. A slice
of none does if the cursor stands inside the bytes. -/
theorem agrees_slice {count : Nat} (h : 0 < count ∨ cursor.position ≤ cursor.bytes.size) :
    Agrees (slice count) (Read.take count) cursor := by
  by_cases hShort : cursor.remaining < count
  · have hBlock : Read.block count cursor = .error (.unexpectedEnd cursor.offset) cursor :=
      dif_neg (Nat.not_le_of_lt hShort)
    have hRead : Read.take count cursor = .error (.unexpectedEnd cursor.offset) cursor :=
      bind_of_eq_error hBlock
    refine ⟨⟨0, by rw [hRead]; rfl⟩, fun hLeft => ?_⟩
    rw [hRead] at hLeft
    have hHere : cursor.offset < UInt64.size := hLeft
    rw [slice, Read.get_bind, if_pos hShort, bind_of_eq_ok (offset_of_lt hHere), mapError, hRead]
    rfl
  · have hEnough : count ≤ cursor.remaining := Nat.le_of_not_lt hShort
    have hBlock : Read.block count cursor =
        .ok ⟨cursor.ahead count, cursor.length_ahead hEnough⟩ (cursor.advance count) :=
      dif_pos hEnough
    have hRead : Read.take count cursor = .ok (cursor.ahead count) (cursor.advance count) :=
      bind_of_eq_ok hBlock
    refine ⟨⟨count, by rw [hRead]; rfl⟩, fun hLeft => ?_⟩
    rw [hRead] at hLeft
    have hNext : cursor.base + (cursor.position + count) < UInt64.size := hLeft
    have hInside : cursor.position + count ≤ cursor.bytes.size := by
      rw [Cursor.remaining] at hEnough
      omega
    rw [slice, Read.get_bind, if_neg hShort, add_of_lt (by omega), mapError, hRead, pure_bind, cut,
      if_pos ⟨Nat.le_add_right _ _, hInside⟩]
    rfl

/-- A slice that is taken is the next bytes, and as many of them as were asked for. -/
theorem slice_of_eq_ok {count : Nat} {bytes : List UInt8} {next : Cursor}
    (h : slice count cursor = .ok bytes next) :
    bytes = cursor.rest.take count ∧ bytes.length = count ∧ next = cursor.advance count := by
  rw [slice, Read.get_bind] at h
  by_cases hShort : cursor.remaining < count
  · rw [if_pos hShort] at h
    obtain ⟨_, _, _, hThrow⟩ := Read.bind_eq_ok.mp h
    exact absurd hThrow nofun
  rw [if_neg hShort] at h
  simp only [Read.bind_eq_ok] at h
  obtain ⟨stop, _, hStop, part, _, hPart, _, _, hSet, hBytes⟩ := h
  obtain ⟨rfl, rfl⟩ := eq_of_checked_eq_ok hStop
  obtain ⟨rfl, rfl⟩ := eq_of_checked_eq_ok hPart
  obtain ⟨rfl, rfl⟩ := Read.pure_eq_ok.mp hBytes
  obtain ⟨-, rfl⟩ := EStateM.Result.ok.inj hSet
  exact ⟨cursor.ahead_eq count, cursor.length_ahead (Nat.le_of_not_lt hShort), rfl⟩

/-- Words of at least one byte. To slice nothing behind the end would be a fault. -/
theorem agrees_littleEndian {count : Nat} (h : 0 < count) :
    Agrees (littleEndian count) (Read.littleEndian count) cursor :=
  (agrees_slice (.inl h)).map

/-- The groups of a number are taken one byte after the other. -/
theorem agrees_addGroups {start groups : Nat} {sofar : UInt64} :
    Agrees (addGroups byte .refusal start groups sofar) (addGroups Read.byte id start groups sofar)
      cursor := by
  induction groups generalizing sofar cursor with
  | zero => exact .pure none
  | succ groups ih =>
      refine agrees_byte.bind fun group next _ => .guard fun _ => ?_
      by_cases hLast : group &&& 0x80 = 0
      · rw [if_pos hLast, if_pos hLast]
        exact .guard fun _ => .pure _
      · rw [if_neg hLast, if_neg hLast]
        exact ih

/-- The loop over the groups of a number, with shifts and masks of words, gives what the groups give
as numbers. -/
theorem agrees_word {start : Nat} :
    Agrees (word byte .refusal start) (word Read.byte id start) cursor := by
  refine agrees_addGroups.bind fun found next _ => ?_
  cases found with
  | none => exact .throw _
  | some value => exact .pure value

theorem agrees_uleb128 : Agrees uleb128 Read.uleb128 cursor := by
  have hWord : Agrees uleb128
      (Read.offset >>= fun start => word Read.byte id start >>= fun value => pure value.toNat)
      cursor :=
    agrees_offset.bind fun _ _ _ => agrees_word.map
  exact hWord.congr (uleb128_eq_word cursor)

theorem agrees_bounded {max : Nat} : Agrees (bounded max) (Read.bounded max) cursor :=
  agrees_offset.bind fun _ _ _ => agrees_uleb128.bind fun _ _ _ => .guard fun _ => .pure _

theorem agrees_index : Agrees index Read.index cursor :=
  agrees_bounded.map

/-- A count is held against the bytes that are left. They are found by a difference that cannot go
below zero. -/
theorem agrees_count : Agrees count Read.count cursor := by
  refine .remaining_bind (agrees_offset.bind fun _ _ _ => agrees_uleb128.bind fun _ _ _ => ?_)
  exact .guard fun _ => .pure _

/-- Behind a number the cursor stands inside the bytes. -/
theorem position_le_of_uleb128 {next : Cursor} {value : Nat}
    (h : Read.uleb128 cursor = .ok value next) : next.position ≤ next.bytes.size := by
  obtain ⟨-, hBytes, rfl⟩ := Read.uleb128_eq_ok.mp h
  have hSome := Uleb128.length_encode_pos value
  have hInside := Cursor.length_le_remaining hBytes
  rw [Cursor.remaining] at hInside
  change cursor.position + _ ≤ cursor.bytes.size
  omega

/-- The length is held against what is left before the bytes are sliced, so that the slice is
inside. -/
theorem agrees_byteString : Agrees byteString Read.byteString cursor := by
  refine agrees_offset.bind fun _ _ _ => agrees_uleb128.bind fun _ _ hLength => ?_
  refine .remaining_bind (.guard fun _ => ?_)
  exact agrees_slice (.inr (position_le_of_uleb128 hLength))

theorem agrees_text : Agrees text Read.text cursor := by
  refine agrees_offset.bind fun _ _ _ => agrees_byteString.bind fun bytes _ _ => ?_
  cases Text.ofBytes? bytes with
  | none => exact .throw _
  | some text => exact .pure text

theorem agrees_flag {what : String} : Agrees (flag what) (Read.flag what) cursor := by
  refine agrees_offset.bind fun _ _ _ => agrees_byte.bind fun value _ _ => ?_
  by_cases hNo : value = 0
  · subst hNo
    exact .pure false
  by_cases hYes : value = 1
  · subst hYes
    exact .pure true
  · simp only
    exact .throw _

end Reads

end Machine

end MoveModule.Binary
