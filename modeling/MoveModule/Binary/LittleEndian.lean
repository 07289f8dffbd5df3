/-! Numbers in a fixed count of bytes, the lowest byte first. -/
namespace MoveModule.Binary.LittleEndian

/-- The `count` low bytes of a number. -/
def encode : Nat → Nat → List UInt8
  | 0, _ => []
  | count + 1, n => UInt8.ofNat (n % 256) :: encode count (n / 256)

/-- The number that a row of bytes stands for. -/
def value : List UInt8 → Nat
  | [] => 0
  | byte :: rest => byte.toNat + 256 * value rest

@[simp]
theorem length_encode (count n : Nat) : (encode count n).length = count := by
  induction count generalizing n with
  | zero => rfl
  | succ count ih => simp [encode, ih]

/-- A number of as many bits as the bytes hold comes back. -/
theorem ofNat_value_encode (count n : Nat) :
    BitVec.ofNat (8 * count) (value (encode count n)) = BitVec.ofNat (8 * count) n := by
  have key (count n : Nat) : value (encode count n) = n % 256 ^ count := by
    induction count generalizing n with
    | zero => simp [encode, value, Nat.mod_one]
    | succ count ih =>
        rw [encode, value, ih, Nat.pow_succ', Nat.mod_mul]
        simp
  apply BitVec.eq_of_toNat_eq
  simp [key, Nat.pow_mul]

/-- Two numbers of as many bits as the bytes hold have different bytes. -/
theorem encode_toNat_inj {count : Nat} {first second : BitVec (8 * count)}
    (h : encode count first.toNat = encode count second.toNat) : first = second := by
  have hValue := congrArg (fun bytes => BitVec.ofNat (8 * count) (value bytes)) h
  simpa only [ofNat_value_encode, BitVec.ofNat_toNat, BitVec.setWidth_eq] using hValue

theorem encode_value (bytes : List UInt8) : encode bytes.length (value bytes) = bytes := by
  induction bytes with
  | nil => rfl
  | cons byte rest ih =>
      have hByte := byte.toNat_lt
      have hLow : (byte.toNat + 256 * value rest) % 256 = byte.toNat := by omega
      have hHigh : (byte.toNat + 256 * value rest) / 256 = value rest := by omega
      simp [encode, value, hLow, hHigh, ih]

/-- A row of bytes stands for a number of as many bits as they hold. -/
theorem toNat_value (bytes : List UInt8) :
    (BitVec.ofNat (8 * bytes.length) (value bytes)).toNat = value bytes := by
  have key : value bytes < 256 ^ bytes.length := by
    induction bytes with
    | nil => simp [value]
    | cons byte rest ih =>
        have hByte := byte.toNat_lt
        rw [value, List.length_cons, Nat.pow_succ']
        omega
  rw [BitVec.toNat_ofNat, Nat.pow_mul]
  exact Nat.mod_eq_of_lt key

end MoveModule.Binary.LittleEndian
