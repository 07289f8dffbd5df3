import MoveModule.Text.Digit

/-! Numbers. Whole numbers have to fit into 64 bits with a sign. Numbers with a point or
an exponent are kept as they are written, but those that are too large for a
floating-point number of 64 bits are none. -/
namespace MoveModule.Toml

/-- A number with a point or an exponent. -/
structure Decimal where
  isNegative : Bool
  /-- The digits on both sides of the point, with the highest first. -/
  digits : List Nat
  /-- The power of ten that the last digit counts. -/
  exponent : Int
deriving DecidableEq, Repr

inductive Number
  | integer (value : Int)
  | decimal (value : Decimal)
  | infinite (isNegative : Bool)
  | undefined
deriving DecidableEq, Repr

/-- The digits of a word in a base. Single underscores may stand between them. -/
def digits? (base : Nat) (word : List Char) : Option (List Nat) :=
  let framed := '_' :: word ++ ['_']
  if (framed.zip framed.tail).contains ('_', '_') then none
  else (word.filter (· != '_')).mapM fun c => (Text.hexDigit? c).filter (· < base)

/-- Decimal digits without a zero in front of others. -/
def wholeDigits? (word : List Char) : Option (List Nat) :=
  if word.head? == some '0' && word.length != 1 then none else digits? 10 word

/-- Whether there is a minus in front of a word, and the word without its sign. -/
def splitSign : List Char → Bool × List Char
  | '+' :: rest => (false, rest)
  | '-' :: rest => (true, rest)
  | word => (false, word)

def withSign (isNegative : Bool) (size : Nat) : Int :=
  if isNegative then -size else size

namespace Decimal

/-- How many digits a number has in front of its point when it is as large as a
floating-point number can be. -/
def maxPlaces : Nat := 309

/-- The least number that is nearer to the power 1024 of two than to any
floating-point number, or as near. -/
def overflow : Nat :=
  (1 <<< 1024) - (1 <<< 970)

/-- Whether a number is too large for a floating-point number, whatever its sign. The
zeros in front of its digits say nothing of its size. -/
def overflows (number : Decimal) : Bool :=
  let digits := number.digits.dropWhile (· == 0)
  let places : Int := digits.length + number.exponent
  !digits.isEmpty &&
    (maxPlaces < places ||
      places == maxPlaces &&
        overflow ≤ Text.ofDigits 10 ((digits.rightpad maxPlaces 0).take maxPlaces))

/-- A character that only numbers of this kind have. -/
def isMark (c : Char) : Bool :=
  c == '.' || c == 'e' || c == 'E'

/-- The digits after the point, if there is one. -/
def fraction? : List Char → Option (List Nat)
  | [] => some []
  | _ :: word => digits? 10 word

/-- The power of ten after the letter for it, if there is one. -/
def exponent? : List Char → Option Int
  | [] => some 0
  | _ :: word => do
      let (isNegative, unsigned) := splitSign word
      return withSign isNegative (Text.ofDigits 10 (← digits? 10 unsigned))

/-- The number that a word without a sign spells. -/
def ofUnsigned? (isNegative : Bool) (word : List Char) : Option Decimal := do
  let (mantissa, power) := word.span fun c => c != 'e' && c != 'E'
  let (whole, part) := mantissa.span (· != '.')
  let fraction ← fraction? part
  return ⟨isNegative, (← wholeDigits? whole) ++ fraction, (← exponent? power) - fraction.length⟩

end Decimal

namespace Number

/-- A whole number, if it fits into 64 bits. -/
def ofInt? (value : Int) : Option Number :=
  if Int64.minValue.toInt ≤ value && value ≤ Int64.maxValue.toInt then some (integer value)
  else none

/-- A number with a point or an exponent. Above zero it must not be too large, while
below zero it may. -/
def ofDecimal? (value : Decimal) : Option Number :=
  if value.overflows && !value.isNegative then none else some (decimal value)

/-- A number in base ten, or a word for one, without its sign. -/
def ofUnsigned? (isNegative : Bool) (word : List Char) : Option Number := do
  if word == ['i', 'n', 'f'] then return infinite isNegative
  if word == ['n', 'a', 'n'] then return undefined
  if word.any Decimal.isMark then ofDecimal? (← Decimal.ofUnsigned? isNegative word)
  else ofInt? (withSign isNegative (Text.ofDigits 10 (← wholeDigits? word)))

/-- A whole number in another base. -/
def ofBase? (base : Nat) (word : List Char) : Option Number := do
  ofInt? (Text.ofDigits base (← digits? base word))

/-- The number that a word spells. -/
def ofWord? : List Char → Option Number
  | '0' :: 'x' :: word => ofBase? 16 word
  | '0' :: 'o' :: word => ofBase? 8 word
  | '0' :: 'b' :: word => ofBase? 2 word
  | word =>
      let (isNegative, unsigned) := splitSign word
      ofUnsigned? isNegative unsigned

end Number

end MoveModule.Toml
