import MoveModule.Proofs.Constant.Value

/-! Each value of a type has one row of bytes, and every row that is accepted is that of a value.
The counts of vectors are the only part that could be refused: they are read in 64 bits, and each
is held against the number of bytes that are left. Every item takes a byte at least, so no value
whose bytes can be counted is lost to either. -/
namespace MoveModule.ConstantValue

/-- An item takes no more bytes than all items together. -/
theorem length_write_le_of_mem {item : ConstantValue} {items : List ConstantValue}
    (h : item ∈ items) : item.write.length ≤ (writeAll items).length := by
  rw [writeAll_eq, List.flatMap_def]
  exact (List.sublist_flatten_of_mem (List.mem_map_of_mem h)).length_le

theorem length_le_length_writeAll (items : List ConstantValue) :
    items.length ≤ (writeAll items).length := by
  rw [writeAll_eq]
  exact Binary.Read.length_le_length_flatMap write_ne_nil items

/-- The items of vectors can be counted if the bytes can. -/
theorem countable_of_length_write {type : ConstantType} {value : ConstantValue}
    (hType : hasType type value = true) (hLength : value.write.length < UInt64.size) :
    value.Countable := by
  induction type generalizing value with
  | vector item ih =>
      obtain ⟨items, hTypes, rfl⟩ := hasType_vector_iff.mp hType
      rw [write, List.length_append] at hLength
      have hAll : (writeAll items).length < UInt64.size :=
        Nat.lt_of_le_of_lt (Nat.le_add_left _ _) hLength
      refine ⟨Nat.lt_of_le_of_lt (length_le_length_writeAll items) hAll, ?_⟩
      refine allCountable_iff.mpr fun inner hInner => ih (hTypes inner hInner) ?_
      exact Nat.lt_of_le_of_lt (length_write_le_of_mem hInner) hAll
  | _ =>
      -- No value of the other types is a vector.
      cases value with
      | vector items => simp [hasType] at hType
      | _ => trivial

/-- Bytes are read as a value if and only if it is a value of the type and these are its bytes.
So the bytes that pass for a type are those of its values. Rows of bytes too long to be counted in
64 bits exist in the model alone, and for these the counts of the value have to be looked at. -/
theorem decode_eq_ok_iff_write (type : ConstantType) (bytes : List UInt8) :
    (bytes.length < UInt64.size →
      (∀ value, decode type bytes = .ok value ↔
        hasType type value = true ∧ value.write = bytes) ∧
      (type.checkValue bytes = .ok () ↔
        ∃ value, hasType type value = true ∧ value.write = bytes)) ∧
    ∀ value, decode type bytes = .ok value ↔
      (hasType type value = true ∧ value.Countable) ∧ value.write = bytes := by
  refine ⟨?_, fun value => decode_eq_ok⟩
  intro hLength
  have hEncodes (value : ConstantValue) :
      Encodes type value bytes ↔ hasType type value = true ∧ value.write = bytes := by
    constructor
    · intro h
      obtain ⟨⟨hType, -⟩, hBytes⟩ := h
      exact ⟨hType, hBytes⟩
    · intro h
      obtain ⟨hType, rfl⟩ := h
      exact ⟨⟨hType, countable_of_length_write hType hLength⟩, rfl⟩
  refine ⟨fun value => decode_eq_ok.trans (hEncodes value), ?_⟩
  exact ConstantType.checkValue_eq_ok.trans (exists_congr hEncodes)

/-- Two empty vectors in a vector take three bytes. With the same count in two bytes they are
refused, and so is a count of more items than there are bytes, so no value has either as its
bytes. -/
theorem decode_eq_ok_iff_write_empty :
    decode (.vector (.vector .bool)) [2, 0, 0] = .ok (.vector [.vector [], .vector []]) ∧
      (.vector (.vector .bool) : ConstantType).checkValue [0x82, 0, 0, 0] =
        .error (.malformed (.vector (.vector .bool)) (.nonCanonicalUleb128 0)) ∧
      ∀ value, hasType (.vector (.vector .bool)) value = true →
        value.write ≠ [0x82, 0, 0, 0] ∧ value.write ≠ [2, 0] := by
  obtain ⟨hShort, -⟩ := decode_eq_ok_iff_write (.vector (.vector .bool)) [2, 0, 0]
  obtain ⟨hValues, -⟩ := hShort (by decide)
  have hRefused {bytes : List UInt8} {error : ConstantError} (hLength : bytes.length < UInt64.size)
      (hError : decode (.vector (.vector .bool)) bytes = .error error) (value : ConstantValue)
      (hType : hasType (.vector (.vector .bool)) value = true) : value.write ≠ bytes := by
    intro hBytes
    obtain ⟨hShort, -⟩ := decode_eq_ok_iff_write (.vector (.vector .bool)) bytes
    obtain ⟨hValues, -⟩ := hShort hLength
    rw [(hValues value).mpr ⟨hType, hBytes⟩] at hError
    cases hError
  have hWritten : (vector [vector [], vector []]).write = [2, 0, 0] := by
    simp [write, writeAll, Binary.Uleb128.encode_of_lt]
  refine ⟨(hValues _).mpr ⟨rfl, hWritten⟩, rfl, ?_⟩
  intro value hType
  exact ⟨hRefused (by decide) rfl value hType, hRefused (by decide) rfl value hType⟩

end MoveModule.ConstantValue
