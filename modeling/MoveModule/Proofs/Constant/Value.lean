import MoveModule.Constant
import MoveModule.Proofs.Table

/-! Which bytes are values. A value has one row of bytes for its type, and no other bytes
are accepted for it. -/
namespace MoveModule

open Binary

namespace ConstantValue

mutual

/-- The items of all vectors can be counted in 64 bits. -/
def Countable : ConstantValue → Prop
  | vector items => items.length < UInt64.size ∧ AllCountable items
  | _ => True

def AllCountable : List ConstantValue → Prop
  | [] => True
  | item :: rest => Countable item ∧ AllCountable rest

end

theorem allCountable_iff {items : List ConstantValue} :
    AllCountable items ↔ ∀ item ∈ items, item.Countable := by
  induction items with
  | nil => simp [AllCountable]
  | cons item rest ih => rw [AllCountable, ih, List.forall_mem_cons]

/-- All items of a vector have the type of its items. -/
theorem allHaveType_iff {type : ConstantType} {items : List ConstantValue} :
    allHaveType type items = true ↔ ∀ item ∈ items, hasType type item = true := by
  induction items with
  | nil => simp [allHaveType]
  | cons item rest ih => rw [allHaveType, Bool.and_eq_true, ih, List.forall_mem_cons]

theorem writeAll_eq (items : List ConstantValue) : writeAll items = items.flatMap write := by
  induction items with
  | nil => rfl
  | cons item rest ih => rw [writeAll, ih, List.flatMap_cons]

/-- Every value takes a byte, also an empty vector, which has its count. -/
theorem write_ne_nil (value : ConstantValue) : value.write ≠ [] := by
  cases value with
  | bool value => exact List.cons_ne_nil _ _
  | integer width value =>
      refine List.ne_nil_of_length_pos ?_
      rw [write, width.length_codec_write]
      cases width <;> decide
  | address value => exact TableKind.addresses.write_entry_ne_nil value
  | vector items =>
      exact List.append_ne_nil_of_left_ne_nil
        (List.ne_nil_of_length_pos (Uleb128.length_encode_pos _)) _

/-! ### The values of each type -/

theorem hasType_bool_iff {value : ConstantValue} :
    hasType .bool value = true ↔ ∃ flag, bool flag = value := by
  cases value <;> simp [hasType]

theorem hasType_address_iff {value : ConstantValue} :
    hasType .address value = true ↔ ∃ found, address found = value := by
  cases value <;> simp [hasType]

/-- An integer has the type of its own width and no other. -/
theorem hasType_integer_iff {width : Width} {value : ConstantValue} :
    hasType (.integer width) value = true ↔ ∃ n, integer width n = value := by
  cases value with
  | integer actual n =>
      constructor
      · intro h
        obtain rfl : width = actual := by simpa [hasType] using h
        exact ⟨n, rfl⟩
      · intro h
        obtain ⟨_, h⟩ := h
        cases h
        exact beq_self_eq_true _
  | _ => simp [hasType]

/-- A vector may have any items of the one type, and any number of them. -/
theorem hasType_vector_iff {type : ConstantType} {value : ConstantValue} :
    hasType (.vector type) value = true ↔
      ∃ items, (∀ item ∈ items, hasType type item = true) ∧ vector items = value := by
  cases value with
  | vector items => simp [hasType, allHaveType_iff]
  | _ => simp [hasType]

/-! ### Reading -/

section

variable {version : UInt32} {type : ConstantType} {value : ConstantValue} {cursor next : Cursor}

/-- A value of a type without vectors is read as what it holds, whose bytes are too few to be a
matter of counting. -/
theorem scalar_eq_ok {α : Type} {into : α → ConstantValue} {read : Read α}
    (hRead : read.Exact (fun part => (into part).write) fun _ => True)
    (hSize : ∀ part, (into part).write.length < UInt64.size)
    (hType : hasType type value = true ↔ ∃ part, into part = value)
    (hCountable : ∀ part, (into part).Countable) :
    (read >>= fun part => pure (into part)) cursor = .ok value next ↔
      (hasType type value = true ∧ value.Countable) ∧ value.write <+: cursor.rest ∧
        next = cursor.advance value.write.length := by
  rw [hRead.bind_pure_eq_ok into hSize, hType]
  constructor
  · intro h
    obtain ⟨part, rfl, hWritten⟩ := h
    exact ⟨⟨⟨part, rfl⟩, hCountable part⟩, hWritten⟩
  · intro h
    obtain ⟨⟨⟨part, rfl⟩, -⟩, hWritten⟩ := h
    exact ⟨part, rfl, hWritten⟩

/-- A vector is read as its items are, behind their number. -/
theorem readVector_eq_ok
    (hItem : ∀ {item : ConstantValue} {cursor next : Cursor},
      read version type cursor = .ok item next ↔
        (hasType type item = true ∧ item.Countable) ∧ item.write <+: cursor.rest ∧
          next = cursor.advance item.write.length) :
    read version (.vector type) cursor = .ok value next ↔
      (hasType (.vector type) value = true ∧ value.Countable) ∧ value.write <+: cursor.rest ∧
        next = cursor.advance value.write.length := by
  have hItems {count : Nat} {items : List ConstantValue} {cursor next : Cursor} :=
    @Read.times_eq_ok _ (read version type) write
      (fun value => hasType type value = true ∧ value.Countable) hItem count items cursor next
  simp only [read, Read.bind_eq_ok, Read.pure_eq_ok, hItems, forall_and, hasType_vector_iff]
  constructor
  · intro h
    obtain ⟨_, _, hCount, items, _, ⟨⟨rfl, hTypes, hCountable⟩, hRest, rfl⟩, rfl, rfl⟩ := h
    obtain ⟨-, hLength, hPrefix, rfl⟩ := Read.count_eq_ok.mp hCount
    rw [Cursor.rest_advance] at hRest
    rw [write, writeAll_eq, append_prefix_iff, List.length_append]
    exact ⟨⟨⟨items, hTypes, rfl⟩, hLength, allCountable_iff.mpr hCountable⟩,
      ⟨hPrefix, hRest⟩, Cursor.advance_advance _ _ _⟩
  · intro h
    obtain ⟨⟨⟨items, hTypes, rfl⟩, hLength, hCountable⟩, hPrefix, rfl⟩ := h
    rw [write, writeAll_eq] at hPrefix ⊢
    have hCount := Read.count_complete write_ne_nil hLength hPrefix
    have hAll := allCountable_iff.mp hCountable
    rw [append_prefix_iff, ← Cursor.rest_advance] at hPrefix
    rw [List.length_append, ← Cursor.advance_advance]
    exact ⟨_, _, hCount, items, _, ⟨⟨rfl, hTypes, hAll⟩, hPrefix.2, rfl⟩, rfl, rfl⟩

/-- A value is read along its type from the bytes that are written for it. -/
theorem read_eq_ok :
    read version type cursor = .ok value next ↔
      (hasType type value = true ∧ value.Countable) ∧ value.write <+: cursor.rest ∧
        next = cursor.advance value.write.length := by
  induction type generalizing value cursor next with
  | bool =>
      have hFlag := Codec.exact_flag "bool constant" version
      have hOne : 1 < UInt64.size := by decide
      exact scalar_eq_ok hFlag (fun _ => hOne) hasType_bool_iff fun _ => trivial
  | integer width =>
      refine scalar_eq_ok (width.exact_codec version) (fun n => ?_) hasType_integer_iff
        fun _ => trivial
      rw [write, width.length_codec_write]
      cases width <;> decide
  | address =>
      refine scalar_eq_ok (Address.exact_codec version) (fun found => ?_) hasType_address_iff
        fun _ => trivial
      change found.bytes.val.length < UInt64.size
      rw [found.bytes.property]
      decide
  | vector item ih => exact readVector_eq_ok ih

end

/-- The bytes are those of a value of the type. -/
def Encodes (type : ConstantType) (value : ConstantValue) (bytes : List UInt8) : Prop :=
  (hasType type value = true ∧ value.Countable) ∧ value.write = bytes

/-- When all bytes are to be taken, the value that is read has no other bytes behind its own. -/
theorem complete_eq_ok {type : ConstantType} {bytes : List UInt8} {value : ConstantValue} :
    decode.complete type bytes = .ok value ↔ Encodes type value bytes := by
  rw [decode.complete]
  constructor
  · intro h
    cases hRead : read 0 type (Cursor.ofBytes bytes) with
    | error error next => simp [hRead] at h
    | ok found next =>
        simp only [hRead] at h
        split at h
        case isTrue => cases h
        case isFalse hEnd =>
          obtain rfl := Except.ok.inj h
          obtain ⟨hValue, hPrefix, rfl⟩ := read_eq_ok.mp hRead
          rw [Cursor.rest_ofBytes] at hPrefix
          rw [Cursor.hasMore_iff, ne_eq, Decidable.not_not, Cursor.rest_advance,
            Cursor.rest_ofBytes] at hEnd
          have hWritten := List.prefix_iff_eq_append.mp hPrefix
          rw [hEnd, List.append_nil] at hWritten
          exact ⟨hValue, hWritten⟩
  · intro hWritten
    rcases hWritten with ⟨hValue, rfl⟩
    have hPrefix : value.write <+: (Cursor.ofBytes value.write).rest := by simp
    have hRead := (@read_eq_ok 0 type value (Cursor.ofBytes value.write) _).mpr
      ⟨hValue, hPrefix, rfl⟩
    have hEnd : ¬ ((Cursor.ofBytes value.write).advance value.write.length).hasMore = true := by
      simp [Cursor.hasMore_iff]
    simp only [hRead, if_neg hEnd]

/-- Values of a type without vectors all take the same number of bytes. -/
theorem length_write {type : ConstantType} {size : Nat} (hSize : type.fixedSize = some size)
    {value : ConstantValue} (hType : hasType type value = true) : value.write.length = size := by
  cases type with
  | bool =>
      obtain ⟨flag, rfl⟩ := hasType_bool_iff.mp hType
      exact Option.some.inj hSize
  | integer width =>
      obtain ⟨n, rfl⟩ := hasType_integer_iff.mp hType
      rw [write, width.length_codec_write]
      exact Option.some.inj hSize
  | address =>
      obtain ⟨found, rfl⟩ := hasType_address_iff.mp hType
      exact found.bytes.property.trans (Option.some.inj hSize)
  | vector item => simp [ConstantType.fixedSize] at hSize

/-- Bytes are taken for a value if they are the bytes that are written for it. -/
theorem decode_eq_ok {type : ConstantType} {bytes : List UInt8} {value : ConstantValue} :
    decode type bytes = .ok value ↔ Encodes type value bytes := by
  rw [decode]
  cases hSize : type.fixedSize with
  | none => exact complete_eq_ok
  | some expected =>
      dsimp only
      split
      case isTrue => exact complete_eq_ok
      case isFalse hLength =>
        simp only [reduceCtorEq, false_iff]
        intro h
        obtain ⟨⟨hType, -⟩, rfl⟩ := h
        exact hLength (length_write hSize hType)

end ConstantValue

/-- Bytes pass the check of a type if and only if they are those of one of its values. -/
theorem ConstantType.checkValue_eq_ok {type : ConstantType} {bytes : List UInt8} :
    type.checkValue bytes = .ok () ↔ ∃ value, ConstantValue.Encodes type value bytes := by
  simp only [← ConstantValue.decode_eq_ok, checkValue]
  cases ConstantValue.decode type bytes <;> simp [Except.map]

end MoveModule
