import Mathlib.Data.Nat.Bitwise
import MoveModule.Binary.Machine
import MoveModule.Proofs.Binary.Truthful

/-! Numbers in groups of seven bits as words. A machine writes them with shifts and masks and puts
them together again in the same way. It reads what it writes and nothing else, and what it refuses
is refused for one of three reasons that exclude one another. -/
namespace MoveModule.Binary

namespace Machine

section Bits

theorem toNat_lowGroup (value : UInt64) :
    (value &&& 0x7F).toUInt8.toNat = value.toNat % 128 := by
  have hMask : (0x7F : UInt64).toNat = 2 ^ 7 - 1 := rfl
  rw [UInt64.toNat_toUInt8, UInt64.toNat_and, hMask, Nat.and_two_pow_sub_one_eq_mod]
  omega

theorem toNat_high (value : UInt64) : (value >>> 7).toNat = value.toNat / 128 := by
  rw [UInt64.toNat_shiftRight]
  exact Nat.shiftRight_eq_div_pow _ 7

theorem toNat_continued {group : UInt8} (h : group.toNat < 128) :
    (group ||| 0x80).toNat = group.toNat + 128 := by
  have hBit : (0x80 : UInt8).toNat = 2 ^ 7 * 1 := rfl
  rw [UInt8.toNat_or, hBit, Nat.or_comm, ← Nat.two_pow_add_eq_or_of_lt h]
  omega

theorem toNat_masked (group : UInt8) : (group &&& 0x7F).toNat = group.toNat % 128 := by
  have hMask : (0x7F : UInt8).toNat = 2 ^ 7 - 1 := rfl
  rw [UInt8.toNat_and, hMask, Nat.and_two_pow_sub_one_eq_mod]

/-- A group is the last one when it is small. -/
theorem and_continued_eq_zero_iff (group : UInt8) : group &&& 0x80 = 0 ↔ group < 128 := by
  have hByte := group.toNat_lt
  have hBit : (0x80 : UInt8).toNat = 2 ^ 7 := rfl
  have hNone : (0 : UInt8).toNat = 0 := rfl
  have hHigh : (128 : UInt8).toNat = 128 := rfl
  rw [← UInt8.toNat_inj, UInt8.toNat_and, hBit, hNone, Nat.and_two_pow, UInt8.lt_iff_toNat_lt,
    hHigh, Nat.testBit_eq_decide_div_mod_eq]
  by_cases hLow : group.toNat < 128
  · simp [hLow, Nat.div_eq_of_lt hLow]
  · have hOne : group.toNat / 128 % 2 = 1 := by omega
    simp [hLow, hOne]

/-- A group is moved by less than the size of a word. -/
theorem toNat_move {place : Nat} (hPlace : place < Read.maxGroups) :
    (UInt64.ofNat (7 * place)).toNat % 64 = 7 * place := by
  rw [Read.maxGroups] at hPlace
  rw [UInt64.toNat_ofNat_of_lt' (Nat.lt_trans (show 7 * place < 64 by omega) (by decide))]
  omega

/-- No bit of a group leaves the word when it is moved to its place. -/
theorem toNat_shifted {place : Nat} {group : UInt8} (hPlace : place < Read.maxGroups)
    (hLast : place = Read.maxGroups - 1 → group ≤ 1) :
    (shifted place group).toNat = 128 ^ place * (group.toNat % 128) := by
  have hMove := toNat_move hPlace
  rw [Read.maxGroups] at hPlace hLast
  have hWeight : 2 ^ (7 * place) = 128 ^ place := Nat.pow_mul 2 7 place
  have hFits : group.toNat % 128 * 2 ^ (7 * place) < 2 ^ 64 := by
    rcases Nat.lt_or_ge place 9 with hFew | hMany
    · have hPower : 2 ^ (7 * place) ≤ 2 ^ 56 := Nat.pow_le_pow_right (by decide) (by omega)
      have hBits : group.toNat % 128 ≤ 127 := by omega
      exact Nat.lt_of_le_of_lt (Nat.mul_le_mul hBits hPower) (by decide)
    · obtain rfl : place = 9 := by omega
      have hSmall := UInt8.le_iff_toNat_le.mp (hLast rfl)
      have hOne : (1 : UInt8).toNat = 1 := rfl
      omega
  rw [shifted, UInt64.toNat_shiftLeft, UInt8.toNat_toUInt64, toNat_masked, hMove,
    Nat.shiftLeft_eq, Nat.mod_eq_of_lt hFits, hWeight, Nat.mul_comm]

/-- The bits of a group are all there after they were moved to their place in a word. -/
theorem shifted_shiftRight {place : Nat} {group : UInt8} (hPlace : place < Read.maxGroups)
    (hLast : place = Read.maxGroups - 1 → group ≤ 1) :
    shifted place group >>> UInt64.ofNat (7 * place) = (group &&& 0x7F).toUInt64 := by
  have hWeight : 2 ^ (7 * place) = 128 ^ place := Nat.pow_mul 2 7 place
  rw [← UInt64.toNat_inj, UInt64.toNat_shiftRight, toNat_move hPlace, Nat.shiftRight_eq_div_pow,
    hWeight, toNat_shifted hPlace hLast, Nat.mul_div_cancel_left _ (Nat.pow_pos (by decide)),
    UInt8.toNat_toUInt64, toNat_masked]

/-- A group stands above all groups before it. -/
theorem toNat_or_shifted {place : Nat} {group : UInt8} {sofar : UInt64}
    (hPlace : place < Read.maxGroups) (hLast : place = Read.maxGroups - 1 → group ≤ 1)
    (hSofar : sofar.toNat < 128 ^ place) :
    (sofar ||| shifted place group).toNat = sofar.toNat + 128 ^ place * (group.toNat % 128) := by
  have hWeight : 128 ^ place = 2 ^ (7 * place) := (Nat.pow_mul 2 7 place).symm
  rw [UInt64.toNat_or, toNat_shifted hPlace hLast, Nat.or_comm]
  rw [hWeight] at hSofar ⊢
  rw [← Nat.two_pow_add_eq_or_of_lt hSofar, Nat.add_comm]

theorem toNat_or_shifted_lt {place : Nat} {group : UInt8} {sofar : UInt64}
    (hPlace : place < Read.maxGroups) (hLast : place = Read.maxGroups - 1 → group ≤ 1)
    (hSofar : sofar.toNat < 128 ^ place) :
    (sofar ||| shifted place group).toNat < 128 ^ (place + 1) := by
  have hBits : group.toNat % 128 ≤ 127 := by omega
  have hGroup := Nat.mul_le_mul_left (128 ^ place) hBits
  rw [toNat_or_shifted hPlace hLast hSofar, Nat.pow_succ]
  omega

end Bits

/-- What is written with shifts and masks is the only form of the number. -/
theorem emit_eq_encode (value : UInt64) : emit value = Uleb128.encode value.toNat := by
  fun_induction emit value with
  | case1 value group high hHigh =>
      have hSmall : value.toNat / 128 = 0 := by
        rw [← toNat_high]
        exact congrArg UInt64.toNat hHigh
      have hGroup : group = UInt8.ofNat value.toNat := by
        rw [← UInt8.toNat_inj, toNat_lowGroup, UInt8.toNat_ofNat']
        omega
      rw [Uleb128.encode_of_lt (by omega), hGroup]
  | case2 value group high hHigh ih =>
      have hLarge : value.toNat / 128 ≠ 0 := by
        rw [← toNat_high]
        exact fun h => hHigh (UInt64.toNat_inj.mp h)
      have hLow : group.toNat = value.toNat % 128 := toNat_lowGroup value
      have hGroup : group ||| 0x80 = UInt8.ofNat (value.toNat % 128 + 128) := by
        rw [← UInt8.toNat_inj, toNat_continued (by omega), hLow, UInt8.toNat_ofNat']
        omega
      rw [Uleb128.encode_of_le (by omega), ih, hGroup, toNat_high]

section Groups

open Read

variable {start groups place : Nat} {sofar : UInt64} {cursor : Cursor}

/-- The number that a word read so far and the groups behind it make up. -/
def joined (place : Nat) (sofar : UInt64) (high : Nat) : UInt64 :=
  UInt64.ofNat (sofar.toNat + 128 ^ place * high)

/-- One group, with what is known of the groups behind it. -/
theorem addGroups_succ (hPlace : place + (groups + 1) = maxGroups)
    (hSofar : sofar.toNat < 128 ^ place)
    (hBehind : ∀ value next, groups ≠ 0 → value.toNat < 128 ^ (place + 1) →
      addGroups Read.byte id start groups value next =
        (uleb128Groups start groups >>= fun high =>
          pure (some (joined (place + 1) value high))) next) :
    addGroups Read.byte id start (groups + 1) sofar cursor =
      (uleb128Groups start (groups + 1) >>= fun high =>
        pure (some (joined place sofar high))) cursor := by
  have hHere : maxGroups - (groups + 1) = place := by omega
  have hFinal : place = maxGroups - 1 ↔ groups = 0 := by omega
  have hLater : place > 0 ↔ groups + 1 < maxGroups := by omega
  rw [addGroups, uleb128Groups, bind_assoc]
  cases hByte : Read.byte cursor with
  | error error next => rw [bind_of_eq_error hByte, bind_of_eq_error hByte]
  | ok group next =>
      rw [bind_of_eq_ok hByte, bind_of_eq_ok hByte]
      simp only [hHere, hFinal, hLater, and_continued_eq_zero_iff]
      by_cases hTooLarge : groups = 0 ∧ group > 1
      · rw [if_pos hTooLarge, if_pos hTooLarge]
        rfl
      rw [if_neg hTooLarge, if_neg hTooLarge]
      have hInside : place < maxGroups := by omega
      have hSmall : place = maxGroups - 1 → group ≤ 1 := fun h =>
        UInt8.not_lt.mp fun hMore => hTooLarge ⟨hFinal.mp h, hMore⟩
      have hValue := toNat_or_shifted hInside hSmall hSofar
      by_cases hLast : group < 128
      · rw [if_pos hLast, if_pos hLast]
        by_cases hEmpty : group = 0 ∧ groups + 1 < maxGroups
        · rw [if_pos hEmpty, if_pos hEmpty]
          rfl
        · have hBits : group.toNat % 128 = group.toNat :=
            Nat.mod_eq_of_lt (UInt8.lt_iff_toNat_lt.mp hLast)
          rw [if_neg hEmpty, if_neg hEmpty, pure_bind, joined, ← hBits, ← hValue,
            UInt64.ofNat_toNat]
      · have hLarge : 128 ≤ group.toNat :=
          Nat.le_of_not_lt fun h => hLast (UInt8.lt_iff_toNat_lt.mpr h)
        have hMore : groups ≠ 0 := fun h =>
          hTooLarge ⟨h, UInt8.lt_iff_toNat_lt.mpr (Nat.lt_of_lt_of_le (by decide) hLarge)⟩
        have hBits : group.toNat % 128 = group.toNat - 128 := by
          have hByteSize := group.toNat_lt
          omega
        have hJoined (high : Nat) : joined (place + 1) (sofar ||| shifted place group) high =
            joined place sofar (group.toNat - 128 + 128 * high) := by
          rw [joined, joined, hValue, hBits, Nat.pow_succ, Nat.mul_add, Nat.add_assoc,
            Nat.mul_assoc]
        rw [if_neg hLast, if_neg hLast, bind_assoc,
          hBehind _ _ hMore (toNat_or_shifted_lt hInside hSmall hSofar)]
        simp only [hJoined, pure_bind]

/-- Reading groups into a word is reading them as a number. The last group has no bit for others
behind it, so that there always is a number unless the groups are refused. -/
theorem addGroups_eq (hPlace : place + (groups + 1) = maxGroups)
    (hSofar : sofar.toNat < 128 ^ place) :
    addGroups Read.byte id start (groups + 1) sofar cursor =
      (uleb128Groups start (groups + 1) >>= fun high =>
        pure (some (joined place sofar high))) cursor := by
  induction groups generalizing place sofar cursor with
  | zero => exact addGroups_succ hPlace hSofar fun _ _ hNone => absurd rfl hNone
  | succ groups ih =>
      exact addGroups_succ hPlace hSofar fun value next _ hValue => ih (by omega) hValue

theorem addGroups_all :
    addGroups Read.byte id start maxGroups 0 cursor =
      (uleb128Groups start maxGroups >>= fun value =>
        pure (some (UInt64.ofNat value))) cursor := by
  have hJoined (value : Nat) : joined 0 0 value = UInt64.ofNat value := by
    rw [joined, Nat.pow_zero, Nat.one_mul]
    exact congrArg UInt64.ofNat (Nat.zero_add value)
  have hAll := @addGroups_eq start 9 0 0 cursor rfl (by decide)
  simp only [hJoined] at hAll
  exact hAll

/-- The groups never end without a number. -/
theorem addGroups_ne_none (next : Cursor) :
    addGroups Read.byte id start maxGroups 0 cursor ≠ .ok none next := by
  rw [addGroups_all]
  intro h
  obtain ⟨_, _, _, hSome⟩ := bind_eq_ok.mp h
  exact absurd (pure_eq_ok.mp hSome).1 (Option.some_ne_none _)

/-- The word of a number is what its groups add up to. -/
theorem word_eq :
    word Read.byte id start cursor =
      (uleb128Groups start maxGroups >>= fun value => pure (UInt64.ofNat value)) cursor := by
  have hAll := @addGroups_all start cursor
  cases hRead : uleb128Groups start maxGroups cursor with
  | error error next =>
      rw [bind_of_eq_error hRead] at hAll ⊢
      rw [word, bind_of_eq_error hAll]
  | ok value next =>
      rw [bind_of_eq_ok hRead] at hAll ⊢
      rw [word, bind_of_eq_ok (hAll.trans rfl)]

/-- A number that is read has a place in a word. -/
theorem uleb128_eq_word (cursor : Cursor) :
    Read.uleb128 cursor =
      (word Read.byte id cursor.offset >>= fun value => pure value.toNat) cursor := by
  change uleb128Groups cursor.offset maxGroups cursor = _
  have hWord := @word_eq cursor.offset cursor
  cases hRead : uleb128Groups cursor.offset maxGroups cursor with
  | error error next =>
      rw [bind_of_eq_error hRead] at hWord
      rw [bind_of_eq_error hWord]
  | ok value next =>
      have hSize : value < UInt64.size := (uleb128Groups_sound (Nat.le_refl _) hRead).1
      rw [bind_of_eq_ok hRead] at hWord
      rw [bind_of_eq_ok (hWord.trans rfl), UInt64.toNat_ofNat_of_lt' hSize]
      rfl

/-- A word is read from the groups that are written for it and from no others. -/
theorem word_eq_ok {value : UInt64} {next : Cursor} :
    word Read.byte id cursor.offset cursor = .ok value next ↔
      emit value <+: cursor.rest ∧ next = cursor.advance (emit value).length := by
  have hNumber := @uleb128_eq_ok cursor next value.toNat
  have hSize : value.toNat < UInt64.size := value.toNat_lt
  rw [uleb128_eq_word, bind_eq_ok, ← emit_eq_encode] at hNumber
  constructor
  · intro hWord
    exact (hNumber.mp ⟨value, next, hWord, pure_eq_ok.mpr ⟨rfl, rfl⟩⟩).2
  · intro hGroups
    obtain ⟨found, _, hWord, hFound⟩ := hNumber.mpr ⟨hSize, hGroups⟩
    obtain ⟨hSame, rfl⟩ := pure_eq_ok.mp hFound
    rwa [UInt64.toNat_inj.mp hSame] at hWord

end Groups

end Machine

namespace Read

section

variable {ε α : Type} {error : ε} {cursor next : Cursor}

theorem pure_eq_error {value : α} :
    (pure value : ReadOr ε α) cursor = .error error next ↔ False :=
  ⟨nofun, nofun⟩

theorem throw_eq_error {given : ε} :
    (throw given : ReadOr ε α) cursor = .error error next ↔ error = given ∧ next = cursor := by
  change EStateM.Result.error given cursor = _ ↔ _
  rw [EStateM.Result.error.injEq, eq_comm, eq_comm (a := cursor)]

theorem ite_eq_error {condition : Prop} [Decidable condition] {yes no : ReadOr ε α} :
    (if condition then yes else no) cursor = .error error next ↔
      condition ∧ yes cursor = .error error next ∨
        ¬ condition ∧ no cursor = .error error next := by
  by_cases h : condition <;> simp [h]

end

section Refusals

variable {start groups : Nat} {cursor next : Cursor} {error : DecodeError}

/-- Why the groups in front of a cursor are refused as the last groups of a number, of which there
may be `groups`. The number has groups before them if these are not as many as it may have. -/
inductive Unreadable (start : Nat) (cursor : Cursor) (groups : Nat) : DecodeError → Cursor → Prop
  /-- The bytes end behind a group that is not the last one. -/
  | short (hFew : cursor.remaining < groups) (hMore : ∀ group ∈ cursor.rest, 128 ≤ group) :
      Unreadable start cursor groups (.unexpectedEnd (cursor.offset + cursor.remaining))
        (cursor.advance cursor.remaining)
  /-- The last group is not the first one and adds nothing to the number. -/
  | redundant (place : Nat) (hPlace : place < groups) (hLater : groups < maxGroups + place)
      (hMore : ∀ group ∈ cursor.rest.take place, 128 ≤ group)
      (hLast : cursor.rest[place]? = some 0) :
      Unreadable start cursor groups (.nonCanonicalUleb128 start) (cursor.advance (place + 1))
  /-- The last group that there may be has bits that are none of the number. -/
  | large (last : UInt8) (hMore : ∀ group ∈ cursor.rest.take (groups - 1), 128 ≤ group)
      (hLast : cursor.rest[groups - 1]? = some last) (hLarge : 1 < last) :
      Unreadable start cursor groups (.malformedUleb128 start) (cursor.advance groups)

/-- A group in front of others does not change why these are refused. -/
theorem unreadable_succ_iff {group : UInt8} {tail : List UInt8}
    (hRest : cursor.rest = group :: tail) (hGroup : 128 ≤ group) :
    Unreadable start cursor (groups + 2) error next ↔
      Unreadable start (cursor.advance 1) (groups + 1) error next := by
  have hTail : (cursor.advance 1).rest = tail := by rw [Cursor.rest_advance, hRest]; rfl
  have hLength : cursor.remaining = (cursor.advance 1).remaining + 1 := by
    rw [← Cursor.length_rest, ← Cursor.length_rest, hRest, hTail, List.length_cons]
  have hOffset : cursor.offset + cursor.remaining =
      (cursor.advance 1).offset + (cursor.advance 1).remaining := by
    rw [Cursor.offset_advance, hLength]
    omega
  have hNext (count : Nat) : cursor.advance (count + 1) = (cursor.advance 1).advance count := by
    rw [Cursor.advance_advance, Nat.add_comm]
  constructor
  · intro h
    cases h with
    | short hFew hMore =>
        rw [hRest] at hMore
        rw [hOffset, hLength, hNext (cursor.advance 1).remaining]
        exact .short (by omega) (hTail ▸ (List.forall_mem_cons.mp hMore).2)
    | redundant place hPlace hLater hMore hLast =>
        rw [hRest] at hMore hLast
        cases place with
        | zero =>
            obtain rfl : group = 0 := Option.some.inj hLast
            exact absurd hGroup (by decide)
        | succ place =>
            rw [List.take_succ_cons] at hMore
            rw [hNext (place + 1)]
            exact .redundant place (by omega) (by omega)
              (hTail ▸ (List.forall_mem_cons.mp hMore).2) (hTail ▸ hLast)
    | large last hMore hLast hLarge =>
        rw [hRest] at hMore hLast
        rw [hNext (groups + 1)]
        exact .large last (hTail ▸ (List.forall_mem_cons.mp hMore).2) (hTail ▸ hLast) hLarge
  · intro h
    cases h with
    | short hFew hMore =>
        rw [← hOffset, ← hNext (cursor.advance 1).remaining, ← hLength]
        refine .short (by omega) ?_
        rw [hRest]
        exact List.forall_mem_cons.mpr ⟨hGroup, hTail ▸ hMore⟩
    | redundant place hPlace hLater hMore hLast =>
        rw [← hNext (place + 1)]
        refine .redundant (place + 1) (by omega) (by omega) ?_ ?_
        · rw [hRest]
          exact List.forall_mem_cons.mpr ⟨hGroup, hTail ▸ hMore⟩
        · rw [hRest]
          exact hTail ▸ hLast
    | large last hMore hLast hLarge =>
        rw [← hNext (groups + 1)]
        refine .large last ?_ ?_ hLarge
        · rw [hRest]
          exact List.forall_mem_cons.mpr ⟨hGroup, hTail ▸ hMore⟩
        · rw [hRest]
          exact hTail ▸ hLast

/-- Without a byte there is no group. -/
theorem unreadable_of_nil (hRest : cursor.rest = []) :
    Unreadable start cursor (groups + 1) error next ↔
      error = .unexpectedEnd cursor.offset ∧ next = cursor := by
  have hNone : cursor.remaining = 0 := by rw [← Cursor.length_rest, hRest]; rfl
  constructor
  · intro h
    cases h with
    | short => rw [hNone]; exact ⟨rfl, rfl⟩
    | redundant place hPlace hLater hMore hLast => simp [hRest] at hLast
    | large last hMore hLast hLarge => simp [hRest] at hLast
  · rintro ⟨rfl, rfl⟩
    have hMore : ∀ group ∈ next.rest, 128 ≤ group := by simp [hRest]
    have hShort := @Unreadable.short start next (groups + 1) (by omega) hMore
    rwa [hNone] at hShort

/-- A first group that has to be the last one is refused for itself. -/
theorem unreadable_of_last {group : UInt8} {tail : List UInt8} (hRest : cursor.rest = group :: tail)
    (hGroup : 128 ≤ group → groups = 0) :
    Unreadable start cursor (groups + 1) error next ↔
      (groups = 0 ∧ 1 < group ∧ error = .malformedUleb128 start ∨
        group = 0 ∧ groups + 1 < maxGroups ∧ error = .nonCanonicalUleb128 start) ∧
      next = cursor.advance 1 := by
  have hLength : cursor.remaining = tail.length + 1 := by
    rw [← Cursor.length_rest, hRest, List.length_cons]
  have hHead {count : Nat} (hMore : ∀ other ∈ (group :: tail).take (count + 1), 128 ≤ other) :
      groups = 0 :=
    hGroup (hMore group List.mem_cons_self)
  constructor
  · intro h
    cases h with
    | short hFew hMore =>
        rw [hRest] at hMore
        have hNone := hGroup (hMore group List.mem_cons_self)
        omega
    | redundant place hPlace hLater hMore hLast =>
        rw [hRest] at hMore hLast
        cases place with
        | zero => exact ⟨.inr ⟨Option.some.inj hLast, hLater, rfl⟩, rfl⟩
        | succ place =>
            have hNone := hHead hMore
            omega
    | large last hMore hLast hLarge =>
        rw [hRest] at hMore hLast
        cases groups with
        | zero =>
            obtain rfl : group = last := Option.some.inj hLast
            exact ⟨.inl ⟨rfl, hLarge, rfl⟩, rfl⟩
        | succ groups => exact absurd (hHead hMore) (Nat.succ_ne_zero groups)
  · rintro ⟨⟨rfl, hLarge, rfl⟩ | ⟨rfl, hLater, rfl⟩, rfl⟩
    · exact .large group (List.forall_mem_nil _) (by rw [hRest]; rfl) hLarge
    · exact .redundant 0 (by omega) hLater (List.forall_mem_nil _) (by rw [hRest]; rfl)

/-- Groups need a byte. -/
theorem uleb128Groups_of_nil (hRest : cursor.rest = []) :
    uleb128Groups start (groups + 1) cursor = .error error next ↔
      error = .unexpectedEnd cursor.offset ∧ next = cursor := by
  have hByte : byte cursor = .error (.unexpectedEnd cursor.offset) cursor := by
    rw [byte, Cursor.getElem?_position, hRest]
    rfl
  rw [uleb128Groups, bind_of_eq_error hByte, EStateM.Result.error.injEq, eq_comm,
    eq_comm (a := cursor)]

/-- What is wrong with the first of some groups, or else with those behind it. -/
theorem uleb128Groups_of_cons {group : UInt8} {tail : List UInt8}
    (hRest : cursor.rest = group :: tail) :
    uleb128Groups start (groups + 1) cursor = .error error next ↔
      (groups = 0 ∧ 1 < group ∧ error = .malformedUleb128 start ∨
        group = 0 ∧ groups + 1 < maxGroups ∧ error = .nonCanonicalUleb128 start) ∧
        next = cursor.advance 1 ∨
      groups ≠ 0 ∧ 128 ≤ group ∧
        uleb128Groups start groups (cursor.advance 1) = .error error next := by
  have hByte : byte cursor = .ok group (cursor.advance 1) :=
    byte_eq_ok.mpr ⟨hRest ▸ ⟨tail, rfl⟩, rfl⟩
  have hZero : group = 0 → ¬ group > 1 ∧ group < 128 := by
    rintro rfl
    decide
  have hMany : 128 ≤ group → group > 1 := UInt8.lt_of_lt_of_le (by decide)
  simp only [uleb128Groups, bind_of_eq_ok hByte, ite_eq_error, bind_eq_error, throw_eq_error,
    throw_eq_ok, pure_eq_error, false_and, and_false, exists_false, or_false, UInt8.not_lt]
  grind

/-- Groups are refused for one of the reasons and for no other, and the read stops where the
reason is found. -/
theorem uleb128Groups_eq_error :
    uleb128Groups start (groups + 1) cursor = .error error next ↔
      Unreadable start cursor (groups + 1) error next := by
  induction groups generalizing cursor with
  | zero =>
      cases hRest : cursor.rest with
      | nil => rw [uleb128Groups_of_nil hRest, unreadable_of_nil hRest]
      | cons group tail =>
          rw [uleb128Groups_of_cons hRest, unreadable_of_last hRest fun _ => rfl]
          simp only [ne_eq, not_true_eq_false, false_and, or_false]
  | succ groups ih =>
      cases hRest : cursor.rest with
      | nil => rw [uleb128Groups_of_nil hRest, unreadable_of_nil hRest]
      | cons group tail =>
          rw [uleb128Groups_of_cons hRest]
          by_cases hGroup : 128 ≤ group
          · rw [unreadable_succ_iff hRest hGroup, ← ih]
            have hSome : group ≠ 0 := fun h => absurd hGroup (h ▸ by decide)
            simp only [hGroup, hSome, Nat.succ_ne_zero, ne_eq, not_false_eq_true, true_and,
              false_and, or_false, false_or]
          · rw [unreadable_of_last hRest fun h => absurd h hGroup]
            simp only [hGroup, false_and, and_false, or_false]

end Refusals

end Read

namespace Machine

/-- A read of a word is refused for one of the reasons and for no other. -/
theorem word_eq_error {cursor next : Cursor} {error : DecodeError} :
    word Read.byte id cursor.offset cursor = .error error next ↔
      Read.Unreadable cursor.offset cursor Read.maxGroups error next := by
  rw [word_eq, Read.bind_eq_error]
  simp only [Read.pure_eq_error, and_false, exists_false, or_false]
  exact Read.uleb128Groups_eq_error

/-- Words are read from what is written for them and from nothing else, and all other bytes are
refused for the one reason that applies to them. No group is dropped on the way: the groups do
not end without a number or an error, and no bit of a group is moved out of the word. What words
are read and written as is what numbers are. -/
theorem word_inverts_emit (cursor : Cursor) :
    (∀ value next, word Read.byte id cursor.offset cursor = .ok value next ↔
        emit value <+: cursor.rest ∧ next = cursor.advance (emit value).length) ∧
      (∀ error next, word Read.byte id cursor.offset cursor = .error error next ↔
        Read.Unreadable cursor.offset cursor Read.maxGroups error next) ∧
      (∀ next, addGroups Read.byte id cursor.offset Read.maxGroups 0 cursor ≠ .ok none next) ∧
      (∀ place group, place < Read.maxGroups → (place = Read.maxGroups - 1 → group ≤ 1) →
        shifted place group >>> UInt64.ofNat (7 * place) = (group &&& 0x7F).toUInt64) ∧
      (∀ value, emit value = Uleb128.encode value.toNat) ∧
      Read.uleb128 cursor =
        (word Read.byte id cursor.offset >>= fun value => pure value.toNat) cursor :=
  ⟨fun _ _ => word_eq_ok, fun _ _ => word_eq_error, addGroups_ne_none,
    fun _ _ hPlace hLast => shifted_shiftRight hPlace hLast, emit_eq_encode, uleb128_eq_word cursor⟩

/-- The largest word takes all ten groups. -/
example : word Read.byte id 0 (Cursor.ofBytes (List.replicate 9 0xFF ++ [1])) =
    .ok 0xFFFFFFFFFFFFFFFF (Cursor.ofBytes (List.replicate 9 0xFF ++ [1]) |>.seek 10) := rfl

end Machine

end MoveModule.Binary
