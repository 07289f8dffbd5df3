import MoveModule.Text.Hex

/-! Bytes that are written as digits are read back. -/
namespace MoveModule.Text

/-- A character of ASCII is one byte, its own number. -/
theorem bytes_push {text : String} {c : Char} (h : c.toNat ≤ 127) :
    bytes (text.push c) = bytes text ++ [UInt8.ofNat c.toNat] := by
  have hOne : String.utf8EncodeChar c = [UInt8.ofNat c.toNat] := if_pos h
  rw [bytes, String.toByteArray_push, List.utf8Encode_singleton, ByteArray.toList_data_append,
    List.data_toByteArray, hOne]
  rfl

namespace Hex

/-- The byte of a digit. -/
def digitByte (value : UInt8) : UInt8 :=
  UInt8.ofNat (digit value).toNat

theorem digit_le (value : UInt8) (h : value < 16) : (digit value).toNat ≤ 127 := by
  have hAll : ∀ n : Fin 16, (digit (UInt8.ofNat n)).toNat ≤ 127 := by decide
  simpa using hAll ⟨value.toNat, h⟩

/-- Each of the sixteen digits is read back with its value. -/
theorem digitValue?_digitByte (value : UInt8) (h : value < 16) :
    digitValue? (digitByte value) = some value := by
  have hAll : ∀ n : Fin 16, digitValue? (digitByte (UInt8.ofNat n)) = some (UInt8.ofNat n) := by
    decide
  simpa using hAll ⟨value.toNat, h⟩

/-- A byte consists of two halves with a digit for each. -/
theorem halves (byte : UInt8) :
    byte / 16 < 16 ∧ byte % 16 < 16 ∧ 16 * (byte / 16) + byte % 16 = byte := by
  have hAll : ∀ n : Fin 256, let byte := UInt8.ofFin n
      byte / 16 < 16 ∧ byte % 16 < 16 ∧ 16 * (byte / 16) + byte % 16 = byte := by
    decide +kernel
  exact hAll byte.toFin

/-- The bytes of the two digits of a byte. -/
def pair (byte : UInt8) : List UInt8 :=
  [digitByte (byte / 16), digitByte (byte % 16)]

/-- A row of bytes is shown as the pairs of digits of all bytes in a row. -/
theorem bytes_encode (source : List UInt8) : bytes (encode source) = source.flatMap pair := by
  have hFold (text : String) : bytes (source.foldl (fun text byte =>
      (text.push (digit (byte / 16))).push (digit (byte % 16))) text) =
        bytes text ++ source.flatMap pair := by
    induction source generalizing text with
    | nil => simp
    | cons byte rest ih =>
        obtain ⟨hHigh, hLow, -⟩ := halves byte
        rw [List.foldl_cons, ih, bytes_push (digit_le _ hLow), bytes_push (digit_le _ hHigh)]
        simp [pair, digitByte]
  have hEmpty : bytes "" = [] := rfl
  rw [encode, hFold, hEmpty, List.nil_append]

/-- Bytes as they stand in a text, two digits for each. -/
theorem toList_encode (source : List UInt8) :
    (encode source).toList = source.flatMap fun byte => [digit (byte / 16), digit (byte % 16)] := by
  have hFold (text : String) : (source.foldl (fun text byte =>
      (text.push (digit (byte / 16))).push (digit (byte % 16))) text).toList =
        text.toList ++ source.flatMap fun byte => [digit (byte / 16), digit (byte % 16)] := by
    induction source generalizing text with
    | nil => simp
    | cons byte rest ih => simp [ih]
  rw [encode, hFold]
  rfl

/-- Two digits for each byte, so that a row of digits tells how many bytes it stands for. -/
theorem length_toList_encode (source : List UInt8) :
    (encode source).toList.length = 2 * source.length := by
  rw [toList_encode]
  induction source with
  | nil => rfl
  | cons byte rest ih => simp [ih]; omega

/-- Pairs are decoded from the first on, with what was decoded before in the statement for the
induction. -/
theorem decodePairs_flatMap_pair (position : Nat) (sofar source : List UInt8) :
    decodePairs position sofar (source.flatMap pair) = .ok (sofar.reverse ++ source) := by
  induction source generalizing position sofar with
  | nil => simp [decodePairs]
  | cons byte rest ih =>
      obtain ⟨hHigh, hLow, hByte⟩ := halves byte
      rw [List.flatMap_cons, pair, List.cons_append, List.cons_append, List.nil_append, decodePairs]
      simp [digitValue?_digitByte _ hHigh, digitValue?_digitByte _ hLow, ih, hByte]

/-- What is shown is decoded to the bytes that it was shown for. -/
theorem decode_encoded (source : List UInt8) : decode (encode source) = .ok source := by
  have hLength : (source.flatMap pair).length = 2 * source.length := by
    induction source with
    | nil => rfl
    | cons byte rest ih => simp [pair, ih]; omega
  rw [decode, bytes_encode, if_pos (by omega), decodePairs_flatMap_pair, List.reverse_nil,
    List.nil_append]

/-- Digits that are as many as others spell the same bytes as these alone, whatever follows. -/
theorem encode_append_inj {first second : List UInt8} {behind other : List Char}
    (hLength : first.length = second.length)
    (h : (encode first).toList ++ behind = (encode second).toList ++ other) :
    first = second ∧ behind = other := by
  have hDigits : (encode first).toList.length = (encode second).toList.length := by
    rw [length_toList_encode, length_toList_encode, hLength]
  obtain ⟨hText, hBehind⟩ := List.append_inj h hDigits
  have hDecoded := decode_encoded first
  rw [String.toList_inj.mp hText, decode_encoded] at hDecoded
  exact ⟨(Except.ok.inj hDecoded).symm, hBehind⟩

end Hex

end MoveModule.Text
