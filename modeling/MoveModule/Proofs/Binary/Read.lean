import MoveModule.Binary.Codec

/-! What reads accept. A successful read is described by the value that it gives and by
the bytes that it takes from the front of the cursor. The main notion is that of an
exact read, which accepts one form for each admitted value and nothing else. -/
namespace MoveModule.Binary

/-- One byte string in front of another is at the front of a third one piece by piece. -/
theorem append_prefix_iff {first second bytes : List UInt8} :
    first ++ second <+: bytes ↔ first <+: bytes ∧ second <+: bytes.drop first.length := by
  constructor
  · intro h
    obtain ⟨rest, rfl⟩ := h
    simp [List.append_assoc]
  · intro h
    obtain ⟨⟨rest, rfl⟩, hSecond⟩ := h
    simpa using hSecond

/-- A byte string is put together from two others when the first one is at its front and
the second one is all the rest. -/
theorem append_eq_iff {first second bytes : List UInt8} :
    first ++ second = bytes ↔ first <+: bytes ∧ second = bytes.drop first.length := by
  constructor
  · intro hSame
    subst hSame
    simp
  · intro h
    obtain ⟨⟨rest, rfl⟩, rfl⟩ := h
    simp

namespace Cursor

@[simp]
theorem advance_zero (cursor : Cursor) : cursor.advance 0 = cursor := rfl

/-- To go on twice is to go on by the sum. -/
@[simp]
theorem advance_advance (cursor : Cursor) (first second : Nat) :
    (cursor.advance first).advance second = cursor.advance (first + second) := by
  simp [advance, seek, Nat.add_assoc]

theorem rest_seek (cursor : Cursor) (position : Nat) :
    (cursor.seek position).rest = cursor.bytes.toList.drop position := rfl

/-- At the end nothing remains, however far the cursor has gone beyond it. -/
theorem remaining_advance (cursor : Cursor) (count : Nat) :
    (cursor.advance count).remaining = cursor.remaining - count := by
  simp only [remaining, advance, seek]
  omega

/-- There is more as long as bytes stand before the cursor. -/
theorem hasMore_iff (cursor : Cursor) : cursor.hasMore = true ↔ cursor.rest ≠ [] := by
  simp [hasMore, rest]

/-- The bytes that are looked at are the first ones before the cursor, and fewer if the input
ends. -/
theorem ahead_eq (cursor : Cursor) (count : Nat) :
    cursor.ahead count = cursor.rest.take count := by
  simp only [ahead, rest, Array.toList_extract, List.extract_eq_take_drop]
  congr 1
  omega

theorem getElem?_position (cursor : Cursor) :
    cursor.bytes[cursor.position]? = cursor.rest.head? := by
  simp [rest, List.head?_drop]

/-- The part between two places is the next bytes from the first of them. -/
theorem rest_window (cursor : Cursor) (start length : Nat) :
    (cursor.window start (start + length)).rest = (cursor.bytes.toList.drop start).take length := by
  simp [window, rest, List.extract_eq_take_drop]

/-- Bytes in front of the cursor are among those that remain. -/
theorem length_le_remaining {cursor : Cursor} {bytes : List UInt8} (h : bytes <+: cursor.rest) :
    bytes.length ≤ cursor.remaining := by
  rw [← length_rest]
  exact h.length_le

/-- The first byte in front of a cursor, and the bytes behind it. -/
theorem cons_prefix_rest_iff {cursor : Cursor} {byte : UInt8} {bytes : List UInt8} :
    byte :: bytes <+: cursor.rest ↔
      [byte] <+: cursor.rest ∧ bytes <+: (cursor.advance 1).rest := by
  rw [← List.singleton_append, append_prefix_iff, List.length_singleton, ← rest_advance]

/-- A cursor stays inside its bytes when it is moved behind bytes that are there. -/
theorem position_advance_le {cursor : Cursor} {bytes : List UInt8}
    (hPlace : cursor.position ≤ cursor.bytes.toList.length) (h : bytes <+: cursor.rest) :
    (cursor.advance bytes.length).position ≤
      (cursor.advance bytes.length).bytes.toList.length := by
  have hLength := h.length_le
  rw [rest, List.length_drop] at hLength
  change cursor.position + bytes.length ≤ cursor.bytes.toList.length
  omega

theorem offset_ofBytes (bytes : List UInt8) : (ofBytes bytes).offset = 0 := rfl

/-- The place in the whole input moves with the cursor. -/
theorem offset_advance (cursor : Cursor) (count : Nat) :
    (cursor.advance count).offset = cursor.offset + count :=
  (Nat.add_assoc _ _ _).symm

end Cursor

namespace Read

section

variable {ε α β : Type} {cursor next : Cursor}

/-- A read after another succeeds when both do, the second from where the first
one stopped. -/
@[simp]
theorem bind_eq_ok {first : ReadOr ε α} {second : α → ReadOr ε β} {value : β} :
    (first >>= second) cursor = .ok value next ↔
      ∃ part middle, first cursor = .ok part middle ∧ second part middle = .ok value next := by
  change EStateM.bind first second cursor = _ ↔ _
  rw [EStateM.bind]
  cases first cursor <;> simp [and_assoc]

/-- What follows a read that succeeds goes on with its value from where it stopped. -/
theorem bind_of_eq_ok {first : ReadOr ε α} {second : α → ReadOr ε β} {value : α}
    (h : first cursor = .ok value next) : (first >>= second) cursor = second value next := by
  change EStateM.bind first second cursor = _
  rw [EStateM.bind, h]

/-- What follows a read that fails is not reached. -/
theorem bind_of_eq_error {first : ReadOr ε α} {second : α → ReadOr ε β} {error : ε}
    (h : first cursor = .error error next) : (first >>= second) cursor = .error error next := by
  change EStateM.bind first second cursor = _
  rw [EStateM.bind, h]

theorem get_bind (second : Cursor → ReadOr ε β) :
    (get >>= second) cursor = second cursor cursor := rfl

theorem modify_bind (f : Cursor → Cursor) (second : PUnit → ReadOr ε β) :
    (modify f >>= second) cursor = second ⟨⟩ (f cursor) := rfl

/-- A read under a condition succeeds on one of its ways, and the condition says on which. -/
@[simp]
theorem ite_eq_ok {condition : Prop} [Decidable condition] {yes no : ReadOr ε α} {value : α} :
    (if condition then yes else no) cursor = .ok value next ↔
      (condition ∧ yes cursor = .ok value next) ∨ (¬ condition ∧ no cursor = .ok value next) := by
  by_cases h : condition <;> simp [h]

@[simp]
theorem pure_eq_ok {given value : α} :
    (pure given : ReadOr ε α) cursor = .ok value next ↔ given = value ∧ cursor = next := by
  change EStateM.Result.ok given cursor = _ ↔ _
  simp

@[simp]
theorem throw_eq_ok {error : ε} {value : α} :
    (throw error : ReadOr ε α) cursor = .ok value next ↔ False := by
  change EStateM.Result.error error cursor = _ ↔ _
  simp

/-- What an error is told as has no influence on success. -/
@[simp]
theorem mapError_eq_ok {δ : Type} {f : ε → δ} {read : ReadOr ε α} {value : α} :
    mapError f read cursor = .ok value next ↔ read cursor = .ok value next := by
  rw [mapError]
  cases read cursor <;> simp

@[simp]
theorem offset_eq_ok {place : Nat} :
    offset cursor = .ok place next ↔ cursor.offset = place ∧ cursor = next := by
  simp [offset]

@[simp]
theorem remaining_eq_ok {count : Nat} :
    remaining cursor = .ok count next ↔ cursor.remaining = count ∧ cursor = next := by
  simp [remaining]

@[simp]
theorem get_eq_ok {value : Cursor} :
    (get : ReadOr ε Cursor) cursor = .ok value next ↔ cursor = value ∧ cursor = next := by
  change EStateM.Result.ok cursor cursor = _ ↔ _
  simp

@[simp]
theorem modify_eq_ok {f : Cursor → Cursor} {value : PUnit} :
    (modify f : ReadOr ε PUnit) cursor = .ok value next ↔ f cursor = next := by
  change EStateM.Result.ok PUnit.unit (f cursor) = _ ↔ _
  simp

end

variable {α β : Type} {cursor next : Cursor}

/-- A byte is read where one is left. -/
theorem byte_eq_ok {value : UInt8} :
    byte cursor = .ok value next ↔ [value] <+: cursor.rest ∧ next = cursor.advance 1 := by
  rw [byte, Cursor.getElem?_position]
  cases cursor.rest with
  | nil => simp
  | cons head tail => simp [eq_comm, List.cons_prefix_cons]

/-- A row of bytes is read where all of them are left. -/
theorem block_eq_ok {count : Nat} {value : { bytes : List UInt8 // bytes.length = count }} :
    block count cursor = .ok value next ↔
      value.val <+: cursor.rest ∧ next = cursor.advance count := by
  obtain ⟨bytes, rfl⟩ := value
  rw [block, List.prefix_iff_eq_take]
  by_cases hCount : bytes.length ≤ cursor.remaining
  · simp [hCount, Cursor.ahead_eq, eq_comm]
  · have hShort : ¬ bytes <+: cursor.rest := fun h => hCount (Cursor.length_le_remaining h)
    rw [List.prefix_iff_eq_take] at hShort
    simp [hCount, hShort]

theorem take_eq_ok {count : Nat} {bytes : List UInt8} :
    take count cursor = .ok bytes next ↔
      bytes.length = count ∧ bytes <+: cursor.rest ∧ next = cursor.advance count := by
  simp only [take, bind_eq_ok, pure_eq_ok, block_eq_ok]
  constructor
  · intro h
    obtain ⟨⟨_, hLength⟩, _, ⟨hBytes, rfl⟩, rfl, rfl⟩ := h
    exact ⟨hLength, hBytes, rfl⟩
  · intro h
    obtain ⟨hLength, hBytes, rfl⟩ := h
    exact ⟨⟨bytes, hLength⟩, _, ⟨hBytes, rfl⟩, rfl, rfl⟩

/-- A word is the value of so many bytes. -/
theorem littleEndian_eq_ok {count n : Nat} :
    littleEndian count cursor = .ok n next ↔
      ∃ bytes, bytes.length = count ∧ bytes <+: cursor.rest ∧
        n = LittleEndian.value bytes ∧ next = cursor.advance count := by
  simp only [littleEndian, bind_eq_ok, pure_eq_ok, take_eq_ok]
  constructor
  · intro h
    obtain ⟨bytes, _, ⟨hLength, hBytes, rfl⟩, rfl, rfl⟩ := h
    exact ⟨bytes, hLength, hBytes, rfl, rfl⟩
  · intro h
    obtain ⟨bytes, hLength, hBytes, rfl, rfl⟩ := h
    exact ⟨bytes, _, ⟨hLength, hBytes, rfl⟩, rfl, rfl⟩

/-- A word has one form, the one that is written for it. -/
theorem word_eq_ok {count : Nat} {value : BitVec (8 * count)} :
    (∃ n, littleEndian count cursor = .ok n next ∧ BitVec.ofNat (8 * count) n = value) ↔
      LittleEndian.encode count value.toNat <+: cursor.rest ∧ next = cursor.advance count := by
  simp only [littleEndian_eq_ok]
  constructor
  · intro h
    obtain ⟨_, ⟨bytes, rfl, hPrefix, rfl, rfl⟩, rfl⟩ := h
    rw [LittleEndian.toNat_value, LittleEndian.encode_value]
    exact ⟨hPrefix, rfl⟩
  · intro h
    obtain ⟨hPrefix, rfl⟩ := h
    refine ⟨_, ⟨_, LittleEndian.length_encode count value.toNat, hPrefix, rfl, rfl⟩, ?_⟩
    rw [LittleEndian.ofNat_value_encode, BitVec.ofNat_toNat, BitVec.setWidth_eq]

/-- The numbers below this fit in so many last groups of a number. The tenth group of
a number holds one bit, so the bound doubles there and grows by seven bits elsewhere. -/
def groupsLimit : (groups : Nat) → Nat
  | 0 => 0
  | 1 => 2
  | groups + 2 => 128 * groupsLimit (groups + 1)

/-- Two groups or more have room for every value of seven bits. -/
theorem le_groupsLimit (groups : Nat) : 128 ≤ groupsLimit (groups + 2) := by
  induction groups with
  | zero => decide
  | succ groups ih =>
      change 128 ≤ 128 * groupsLimit (groups + 2)
      omega

/-- One step through the groups of a number: a group is the last one, or others follow it. -/
theorem uleb128Groups_succ_eq_ok {start groups n : Nat} :
    uleb128Groups start (groups + 1) cursor = .ok n next ↔
      ∃ group : UInt8, [group] <+: cursor.rest ∧ ¬ (groups = 0 ∧ group > 1) ∧
        ((group < 128 ∧ ¬ (group = 0 ∧ groups + 1 < maxGroups) ∧
            group.toNat = n ∧ cursor.advance 1 = next) ∨
          (¬ group < 128 ∧ ∃ high, uleb128Groups start groups (cursor.advance 1) = .ok high next ∧
            group.toNat - 128 + 128 * high = n)) := by
  simp only [uleb128Groups, bind_eq_ok, ite_eq_ok, pure_eq_ok, throw_eq_ok, byte_eq_ok,
    false_and, and_false, exists_false, false_or]
  constructor
  · intro h
    rcases h with ⟨group, _, ⟨hGroup, rfl⟩, hFirst, hLast | ⟨hMore, high, _, hHigh, rfl, rfl⟩⟩
    · exact ⟨group, hGroup, hFirst, .inl hLast⟩
    · exact ⟨group, hGroup, hFirst, .inr ⟨hMore, high, hHigh, rfl⟩⟩
  · intro h
    rcases h with ⟨group, hGroup, hFirst, hLast | ⟨hMore, high, hHigh, rfl⟩⟩
    · exact ⟨group, _, ⟨hGroup, rfl⟩, hFirst, .inl hLast⟩
    · exact ⟨group, _, ⟨hGroup, rfl⟩, hFirst, .inr ⟨hMore, high, next, hHigh, rfl, rfl⟩⟩

/-- Groups that are read are those that are written for the number. They are not a
lone zero unless no group stands in front of them. -/
theorem uleb128Groups_sound {start groups n : Nat} (hGroups : groups ≤ maxGroups)
    (hRead : uleb128Groups start groups cursor = .ok n next) :
    n < groupsLimit groups ∧ (groups < maxGroups → n ≠ 0) ∧
      Uleb128.encode n <+: cursor.rest ∧ next = cursor.advance (Uleb128.encode n).length := by
  induction groups generalizing cursor n with
  | zero => simp [uleb128Groups] at hRead
  | succ groups ih =>
      obtain ⟨group, hGroup, hFirst, hCase⟩ := uleb128Groups_succ_eq_ok.mp hRead
      rcases hCase with ⟨hLast, hZero, rfl, rfl⟩ | ⟨hMore, high, hHigh, rfl⟩
      · rw [UInt8.lt_iff_toNat_lt] at hLast
        rw [Uleb128.encode_of_lt hLast, UInt8.ofNat_toNat]
        refine ⟨?_, fun hFew hEmpty => hZero ⟨UInt8.toNat_inj.mp hEmpty, hFew⟩, hGroup, rfl⟩
        cases groups with
        | zero =>
            rw [gt_iff_lt, UInt8.lt_iff_toNat_lt] at hFirst
            change group.toNat < 2
            have hOne : (1 : UInt8).toNat = 1 := rfl
            omega
        | succ groups => exact Nat.lt_of_lt_of_le hLast (le_groupsLimit groups)
      · obtain ⟨hLimit, hNonzero, hPrefix, rfl⟩ := ih (by omega) hHigh
        have hPositive : high ≠ 0 := hNonzero (by omega)
        have hByte := group.toNat_lt
        have hLarge : 128 ≤ group.toNat := by
          rw [UInt8.lt_iff_toNat_lt] at hMore
          exact Nat.le_of_not_lt hMore
        rw [Uleb128.encode_of_group hLarge hPositive]
        refine ⟨?_, by omega, ?_, by simp [Nat.add_comm]⟩
        · cases groups with
          | zero => exact absurd hLimit (Nat.not_lt_zero high)
          | succ groups =>
              change _ < 128 * groupsLimit (groups + 1)
              omega
        · exact Cursor.cons_prefix_rest_iff.mpr ⟨hGroup, hPrefix⟩

/-- The groups that are written for a number are read if there are not too many. -/
theorem uleb128Groups_complete {start groups n : Nat} (hGroups : groups ≤ maxGroups)
    (hLimit : n < groupsLimit groups) (hNonzero : groups < maxGroups → n ≠ 0)
    (hPrefix : Uleb128.encode n <+: cursor.rest) :
    uleb128Groups start groups cursor =
      .ok n (cursor.advance (Uleb128.encode n).length) := by
  induction groups generalizing cursor n with
  | zero => exact absurd hLimit (Nat.not_lt_zero n)
  | succ groups ih =>
      rw [uleb128Groups_succ_eq_ok]
      by_cases hLast : n < 128
      · rw [Uleb128.encode_of_lt hLast] at hPrefix ⊢
        have hValue : (UInt8.ofNat n).toNat = n :=
          UInt8.toNat_ofNat_of_lt' (Nat.lt_trans hLast (by decide))
        refine ⟨UInt8.ofNat n, hPrefix, ?_, .inl ⟨?_, ?_, hValue, rfl⟩⟩
        · intro h
          obtain ⟨rfl, hLarge⟩ := h
          rw [gt_iff_lt, UInt8.lt_iff_toNat_lt, hValue] at hLarge
          exact absurd (show n < 2 from hLimit) (Nat.not_lt_of_le hLarge)
        · rw [UInt8.lt_iff_toNat_lt, hValue]
          exact hLast
        · intro h
          obtain ⟨hEmpty, hFew⟩ := h
          rw [← UInt8.toNat_inj, hValue] at hEmpty
          exact hNonzero hFew hEmpty
      · rw [Uleb128.encode_of_le (by omega), Cursor.cons_prefix_rest_iff] at hPrefix
        have hValue : (UInt8.ofNat (n % 128 + 128)).toNat = n % 128 + 128 := by
          apply UInt8.toNat_ofNat_of_lt'
          change _ < 256
          omega
        obtain ⟨more, rfl⟩ : ∃ more, groups = more + 1 := by
          cases groups with
          | zero => exact absurd (show n < 2 from hLimit) (by omega)
          | succ more => exact ⟨more, rfl⟩
        change n < 128 * groupsLimit (more + 1) at hLimit
        have hHigh := @ih (cursor.advance 1) (n / 128) (by omega) (by omega) (by omega) hPrefix.2
        have hLength : (Uleb128.encode n).length = 1 + (Uleb128.encode (n / 128)).length := by
          rw [Uleb128.encode_of_le (Nat.le_of_not_lt hLast), List.length_cons, Nat.add_comm]
        rw [Cursor.advance_advance, ← hLength] at hHigh
        refine ⟨_, hPrefix.1, fun hFirst => by simp at hFirst, .inr ⟨?_, n / 128, hHigh, ?_⟩⟩
        · rw [UInt8.lt_iff_toNat_lt, hValue]
          exact Nat.not_lt_of_le (Nat.le_add_left 128 (n % 128))
        · rw [hValue]
          omega

/-- A number of 64 bits has one form, and a read accepts no other. -/
theorem uleb128_eq_ok {n : Nat} :
    uleb128 cursor = .ok n next ↔
      n < UInt64.size ∧ Uleb128.encode n <+: cursor.rest ∧
        next = cursor.advance (Uleb128.encode n).length := by
  have hLimit : groupsLimit maxGroups = UInt64.size := rfl
  have hFirst : maxGroups < maxGroups → n ≠ 0 := fun h => absurd h (Nat.lt_irrefl _)
  simp only [uleb128, bind_eq_ok, offset_eq_ok]
  constructor
  · intro hResult
    rcases hResult with ⟨_, _, ⟨rfl, rfl⟩, hRead⟩
    obtain ⟨hSize, _, hPrefix, rfl⟩ := uleb128Groups_sound (Nat.le_refl _) hRead
    exact ⟨hLimit ▸ hSize, hPrefix, rfl⟩
  · intro hResult
    rcases hResult with ⟨hSize, hPrefix, rfl⟩
    exact ⟨_, _, ⟨rfl, rfl⟩,
      uleb128Groups_complete (Nat.le_refl _) (hLimit ▸ hSize) hFirst hPrefix⟩

/-- A number is read from the one form in which it is written, if it is within the bound. -/
theorem bounded_eq_ok {max n : Nat} :
    bounded max cursor = .ok n next ↔
      n ≤ max ∧ n < UInt64.size ∧ Uleb128.encode n <+: cursor.rest ∧
        next = cursor.advance (Uleb128.encode n).length := by
  simp only [bounded, bind_eq_ok, ite_eq_ok, pure_eq_ok, throw_eq_ok, offset_eq_ok, uleb128_eq_ok,
    false_and, and_false, exists_false, false_or]
  constructor
  · intro h
    obtain ⟨_, _, ⟨rfl, rfl⟩, _, _, hRead, hMax, rfl, rfl⟩ := h
    exact ⟨Nat.le_of_not_lt hMax, hRead⟩
  · intro h
    obtain ⟨hMax, hRead⟩ := h
    exact ⟨_, _, ⟨rfl, rfl⟩, _, _, hRead, Nat.not_lt_of_le hMax, rfl, rfl⟩

theorem index_eq_ok {value : UInt16} :
    index cursor = .ok value next ↔
      Uleb128.encode value.toNat <+: cursor.rest ∧
        next = cursor.advance (Uleb128.encode value.toNat).length := by
  have hSize := value.toNat_lt
  simp only [index, bind_eq_ok, pure_eq_ok, bounded_eq_ok]
  constructor
  · intro h
    obtain ⟨n, _, ⟨hMax, _, hRead⟩, rfl, rfl⟩ := h
    have hValue : (UInt16.ofNat n).toNat = n := UInt16.toNat_ofNat_of_lt' (Nat.lt_succ_of_le hMax)
    rw [hValue]
    exact hRead
  · intro hRead
    refine ⟨value.toNat, _, ⟨by omega, ?_, hRead⟩, UInt16.ofNat_toNat, rfl⟩
    exact Nat.lt_trans hSize (by decide)

/-- A count is read unless it is larger than the number of bytes from its own last
byte on. So a count of items is refused only if their bytes cannot all be there. -/
theorem count_eq_ok {n : Nat} :
    count cursor = .ok n next ↔
      (n = 0 ∨ n < cursor.remaining) ∧ n < UInt64.size ∧ Uleb128.encode n <+: cursor.rest ∧
        next = cursor.advance (Uleb128.encode n).length := by
  simp only [count, bind_eq_ok, ite_eq_ok, pure_eq_ok, throw_eq_ok, offset_eq_ok, remaining_eq_ok,
    uleb128_eq_ok, false_and, and_false, exists_false, false_or]
  constructor
  · intro h
    obtain ⟨_, _, ⟨rfl, rfl⟩, _, _, ⟨rfl, rfl⟩, _, _, hRead, hMax, rfl, rfl⟩ := h
    exact ⟨by omega, hRead⟩
  · intro h
    obtain ⟨hMax, hRead⟩ := h
    exact ⟨_, _, ⟨rfl, rfl⟩, _, _, ⟨rfl, rfl⟩, _, _, hRead, by omega, rfl, rfl⟩

/-- Bytes with their length in front are read if all of them are there. So one length belongs to
them. -/
theorem byteString_eq_ok {bytes : List UInt8} :
    byteString cursor = .ok bytes next ↔
      bytes.length < UInt64.size ∧ Uleb128.encode bytes.length ++ bytes <+: cursor.rest ∧
        next = cursor.advance (Uleb128.encode bytes.length ++ bytes).length := by
  simp only [byteString, bind_eq_ok, ite_eq_ok, throw_eq_ok, offset_eq_ok, remaining_eq_ok,
    uleb128_eq_ok, take_eq_ok, false_and, and_false, exists_false, false_or, append_prefix_iff]
  constructor
  · intro h
    rcases h with
      ⟨_, _, ⟨rfl, rfl⟩, _, _, ⟨hSize, hCount, rfl⟩, _, _, ⟨rfl, rfl⟩, _, rfl, hBytes, rfl⟩
    exact ⟨hSize, ⟨hCount, by simpa using hBytes⟩, by simp⟩
  · intro h
    obtain ⟨hSize, ⟨hCount, hBytes⟩, rfl⟩ := h
    have hRest : bytes <+: (cursor.advance (Uleb128.encode bytes.length).length).rest := by
      simpa using hBytes
    exact ⟨_, _, ⟨rfl, rfl⟩, _, _, ⟨hSize, hCount, rfl⟩, _, _, ⟨rfl, rfl⟩,
      Nat.not_lt_of_le (Cursor.length_le_remaining hRest), rfl, hRest, by simp⟩

/-- A text is read from its bytes in UTF-8, and every row of bytes belongs to one text at most. -/
theorem text_eq_ok {text : String} :
    Read.text cursor = .ok text next ↔ byteString cursor = .ok (Text.bytes text) next := by
  simp only [Read.text, bind_eq_ok, offset_eq_ok]
  constructor
  · intro h
    obtain ⟨_, _, ⟨rfl, rfl⟩, bytes, _, hBytes, hRead⟩ := h
    cases hSpelled : Text.ofBytes? bytes with
    | none => simp [hSpelled] at hRead
    | some spelled =>
        simp only [hSpelled, pure_eq_ok] at hRead
        obtain ⟨rfl, rfl⟩ := hRead
        rwa [Text.bytes_of_ofBytes? hSpelled]
  · intro hBytes
    refine ⟨_, _, ⟨rfl, rfl⟩, Text.bytes text, next, hBytes, ?_⟩
    rw [Text.ofBytes?_bytes]
    exact pure_eq_ok.mpr ⟨rfl, rfl⟩

end Read

end MoveModule.Binary
