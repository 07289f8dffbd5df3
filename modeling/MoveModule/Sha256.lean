import MoveModule.Binary.LittleEndian

/-! The SHA-256 digest of a byte string, as the standard FIPS 180-4 defines it. -/
namespace MoveModule.Sha256

/-- The eight words that the digest starts from. -/
def initial : List UInt32 :=
  [0x6a09e667, 0xbb67ae85, 0x3c6ef372, 0xa54ff53a, 0x510e527f, 0x9b05688c, 0x1f83d9ab, 0x5be0cd19]

/-- One constant for each of the 64 rounds. -/
def roundConstants : List UInt32 :=
  [0x428a2f98, 0x71374491, 0xb5c0fbcf, 0xe9b5dba5, 0x3956c25b, 0x59f111f1, 0x923f82a4, 0xab1c5ed5,
   0xd807aa98, 0x12835b01, 0x243185be, 0x550c7dc3, 0x72be5d74, 0x80deb1fe, 0x9bdc06a7, 0xc19bf174,
   0xe49b69c1, 0xefbe4786, 0x0fc19dc6, 0x240ca1cc, 0x2de92c6f, 0x4a7484aa, 0x5cb0a9dc, 0x76f988da,
   0x983e5152, 0xa831c66d, 0xb00327c8, 0xbf597fc7, 0xc6e00bf3, 0xd5a79147, 0x06ca6351, 0x14292967,
   0x27b70a85, 0x2e1b2138, 0x4d2c6dfc, 0x53380d13, 0x650a7354, 0x766a0abb, 0x81c2c92e, 0x92722c85,
   0xa2bfe8a1, 0xa81a664b, 0xc24b8b70, 0xc76c51a3, 0xd192e819, 0xd6990624, 0xf40e3585, 0x106aa070,
   0x19a4c116, 0x1e376c08, 0x2748774c, 0x34b0bcb5, 0x391c0cb3, 0x4ed8aa4a, 0x5b9cca4f, 0x682e6ff3,
   0x748f82ee, 0x78a5636f, 0x84c87814, 0x8cc70208, 0x90befffa, 0xa4506ceb, 0xbef9a3f7, 0xc67178f2]

def rotateRight (word count : UInt32) : UInt32 :=
  (word >>> count) ||| (word <<< (32 - count))

/-- A number in the given count of bytes, the highest first. -/
def bigEndian (count n : Nat) : List UInt8 :=
  (Binary.LittleEndian.encode count n).reverse

/-- The message, a one bit, zeros up to eight bytes short of a full block, and
the length of the message in bits. -/
def padded (message : List UInt8) : List UInt8 :=
  let length := message.length
  message ++ 0x80 :: List.replicate ((119 - length % 64) % 64) 0 ++ bigEndian 8 (8 * length)

/-- The words of a block, four bytes each. -/
def words : List UInt8 → List UInt32
  | a :: b :: c :: d :: rest =>
      (a.toUInt32 <<< 24 ||| b.toUInt32 <<< 16 ||| c.toUInt32 <<< 8 ||| d.toUInt32) :: words rest
  | _ => []

/-- The word that follows the sixteen latest words, held from the newest back. -/
def nextWord (recent : List UInt32) : UInt32 :=
  let before (n : Nat) : UInt32 := recent.getD (n - 1) 0
  let low := rotateRight (before 15) 7 ^^^ rotateRight (before 15) 18 ^^^ (before 15 >>> 3)
  let high := rotateRight (before 2) 17 ^^^ rotateRight (before 2) 19 ^^^ (before 2 >>> 10)
  before 16 + low + before 7 + high

/-- Appends `count` words to a schedule held from the newest back. -/
def extend : Nat → List UInt32 → List UInt32
  | 0, recent => recent
  | count + 1, recent => extend count (nextWord recent :: recent)

/-- One round on the eight working words. -/
def round (state : List UInt32) (input : UInt32 × UInt32) : List UInt32 :=
  match state with
  | [a, b, c, d, e, f, g, h] =>
      let s1 := rotateRight e 6 ^^^ rotateRight e 11 ^^^ rotateRight e 25
      let choice := (e &&& f) ^^^ (~~~e &&& g)
      let first := h + s1 + choice + input.1 + input.2
      let s0 := rotateRight a 2 ^^^ rotateRight a 13 ^^^ rotateRight a 22
      let majority := (a &&& b) ^^^ (a &&& c) ^^^ (b &&& c)
      [first + s0 + majority, a, b, c, d + first, e, f, g]
  | other => other

/-- Takes one block of sixteen words into the running digest. -/
def compress (digest : List UInt32) (block : List UInt32) : List UInt32 :=
  let schedule := (extend 48 block.reverse).reverse
  let mixed := (roundConstants.zip schedule).foldl round digest
  List.zipWith (· + ·) digest mixed

/-- Takes `count` blocks of sixteen words into the running digest. -/
def absorb : Nat → List UInt32 → List UInt32 → List UInt32
  | 0, digest, _ => digest
  | count + 1, digest, input => absorb count (compress digest (input.take 16)) (input.drop 16)

/-- The 32 bytes of the digest. -/
def digest (message : List UInt8) : List UInt8 :=
  let input := words (padded message)
  (absorb (input.length / 16) initial input).flatMap fun word => bigEndian 4 word.toNat

end MoveModule.Sha256
