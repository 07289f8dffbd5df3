/-! The values of digits, and of rows of digits with the highest first. -/
namespace MoveModule.Text

/-- The value of a decimal digit. -/
def decimalDigit? (c : Char) : Option Nat :=
  if '0' ≤ c ∧ c ≤ '9' then some (c.toNat - 48) else none

/-- The value of a hexadecimal digit in either case. -/
def hexDigit? (c : Char) : Option Nat :=
  if '0' ≤ c ∧ c ≤ '9' then some (c.toNat - 48)
  else if 'a' ≤ c ∧ c ≤ 'f' then some (c.toNat - 87)
  else if 'A' ≤ c ∧ c ≤ 'F' then some (c.toNat - 55)
  else none

/-- The number that digits spell in a base. -/
def ofDigits (base : Nat) (digits : List Nat) : Nat :=
  digits.foldl (fun value digit => base * value + digit) 0

/-- A number with zeros in front of it up to a width. -/
def padded (width n : Nat) : String :=
  String.ofList ((Nat.toDigits 10 n).leftpad width '0')

/-- The character that is named by its number in base sixteen. Halves of surrogate
pairs are no characters. -/
def codePoint? (digits : List Char) : Option Char := do
  let code := ofDigits 16 (← digits.mapM hexDigit?)
  if code.isValidChar then some (Char.ofNat code) else none

end MoveModule.Text
