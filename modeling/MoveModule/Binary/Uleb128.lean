/-! Unsigned numbers in groups of seven bits, the lowest group first. Every group
but the last carries a continuation bit, and the last group of a long number is
not zero, so each number has one form. -/
namespace MoveModule.Binary.Uleb128

/-- The only form of a number. -/
def encode (n : Nat) : List UInt8 :=
  if n < 128 then [UInt8.ofNat n]
  else UInt8.ofNat (n % 128 + 128) :: encode (n / 128)
termination_by n
decreasing_by omega

theorem encode_of_lt {n : Nat} (h : n < 128) : encode n = [UInt8.ofNat n] := by
  rw [encode, if_pos h]

theorem encode_of_le {n : Nat} (h : 128 ≤ n) :
    encode n = UInt8.ofNat (n % 128 + 128) :: encode (n / 128) := by
  rw [encode, if_neg (by omega)]

/-- A group with a continuation bit and the groups of the number behind it. -/
theorem encode_of_group {group : UInt8} {high : Nat} (hGroup : 128 ≤ group.toNat)
    (hHigh : high ≠ 0) : encode (group.toNat - 128 + 128 * high) = group :: encode high := by
  have hByte := group.toNat_lt
  have hLow : (group.toNat - 128 + 128 * high) % 128 + 128 = group.toNat := by omega
  have hRest : (group.toNat - 128 + 128 * high) / 128 = high := by omega
  rw [encode_of_le (by omega), hLow, hRest, UInt8.ofNat_toNat]

theorem length_encode_pos (n : Nat) : 0 < (encode n).length := by
  rw [encode]
  split <;> simp

end MoveModule.Binary.Uleb128
