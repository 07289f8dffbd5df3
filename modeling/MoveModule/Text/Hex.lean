import MoveModule.Text.Quoted
import MoveModule.Text.Utf8

/-! Bytes as pairs of hexadecimal digits. Writing uses lowercase; reading takes
either case and refuses everything else, an odd number of digits first. -/
namespace MoveModule.Text.Hex

/-- Why a text is not a row of bytes. The place counts bytes of the text. -/
inductive Error
  | oddLength
  | invalidDigit (byte : UInt8) (position : Nat)
deriving DecidableEq, Repr

def Error.message : Error → String
  | .oddLength => "Odd number of digits"
  | .invalidDigit byte position =>
      "Invalid character " ++ quotedChar (Char.ofNat byte.toNat) ++ " at position " ++
        toString position

/-- The digit of a value below sixteen. -/
def digit (value : UInt8) : Char :=
  Char.ofNat (if value < 10 then 48 + value.toNat else 87 + value.toNat)

/-- The value of a digit in either case. -/
def digitValue? (byte : UInt8) : Option UInt8 :=
  if 48 ≤ byte && byte ≤ 57 then some (byte - 48)
  else if 97 ≤ byte && byte ≤ 102 then some (byte - 87)
  else if 65 ≤ byte && byte ≤ 70 then some (byte - 55)
  else none

/-- Two digits for each byte, the high half first. -/
def encode (bytes : List UInt8) : String :=
  bytes.foldl (fun text byte => (text.push (digit (byte / 16))).push (digit (byte % 16))) ""

/-- Reads pairs of digits. `position` is where the first byte stands in the text. -/
def decodePairs (position : Nat) (sofar : List UInt8) : List UInt8 → Except Error (List UInt8)
  | high :: low :: rest =>
      match digitValue? high, digitValue? low with
      | some h, some l => decodePairs (position + 2) ((16 * h + l) :: sofar) rest
      | none, _ => .error (.invalidDigit high position)
      | _, none => .error (.invalidDigit low (position + 1))
  | _ => .ok sofar.reverse

/-- The bytes that a row of digits stands for. -/
def decode (text : String) : Except Error (List UInt8) :=
  let digits := bytes text
  if digits.length % 2 = 0 then decodePairs 0 [] digits else .error .oddLength

end MoveModule.Text.Hex
