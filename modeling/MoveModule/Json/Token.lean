import MoveModule.Json.Basic
import MoveModule.Text.Digit

/-! The tokens of a document. The text is read from left to right, one character
at a time, by a machine whose whole memory is `Lexer`. -/
namespace MoveModule.Json

inductive Token
  | openArray
  | closeArray
  | openObject
  | closeObject
  | comma
  | colon
  | string (text : Option String)
  /-- A number or one of the three words. -/
  | scalar (value : Json)

/-- Where in a token the reading stands. Characters and code units of an unfinished
token are held from the last back. -/
inductive Mode
  | between
  | string (units : List Nat)
  | escape (units : List Nat)
  /-- Inside an escape by number, with the count of digits to come. -/
  | unicode (units : List Nat) (digits value : Nat)
  | word (letters : List Char)

structure Lexer where
  mode : Mode
  /-- The finished tokens, from the last back. -/
  tokens : List Token

def isHighSurrogate (unit : Nat) : Bool :=
  0xD800 ≤ unit && unit < 0xDC00

def isLowSurrogate (unit : Nat) : Bool :=
  0xDC00 ≤ unit && unit < 0xE000

/-- The text that code units spell. Units written by number may be halves of
surrogate pairs, and one without its other half spells nothing. -/
def joinUnits (sofar : List Char) : List Nat → Option String
  | [] => some (String.ofList sofar.reverse)
  | [unit] =>
      if isHighSurrogate unit || isLowSurrogate unit then none
      else some (String.ofList (Char.ofNat unit :: sofar).reverse)
  | high :: low :: rest =>
      if isHighSurrogate high then
        if isLowSurrogate low then
          joinUnits (Char.ofNat (0x10000 + (high - 0xD800) * 0x400 + (low - 0xDC00)) :: sofar) rest
        else none
      else if isLowSurrogate high then none
      else joinUnits (Char.ofNat high :: sofar) (low :: rest)

/-- The character that a backslash and a letter stand for. -/
def shortEscape? (c : Char) : Option Char :=
  match c with
  | '"' => some '"'
  | '\\' => some '\\'
  | '/' => some '/'
  | 'b' => some '\x08'
  | 'f' => some '\x0c'
  | 'n' => some '\n'
  | 'r' => some '\r'
  | 't' => some '\t'
  | _ => none

/-- Drops one digit or more. -/
def dropDigits? (letters : List Char) : Option (List Char) :=
  match letters with
  | first :: rest => if first.isDigit then some (rest.dropWhile Char.isDigit) else none
  | [] => none

/-- Drops the fraction of a number, if it has one. -/
def dropFraction? (letters : List Char) : Option (List Char) :=
  match letters with
  | '.' :: rest => dropDigits? rest
  | other => some other

/-- Drops the exponent of a number, if it has one. -/
def dropExponent? (letters : List Char) : Option (List Char) :=
  match letters with
  | e :: rest =>
      if e == 'e' || e == 'E' then
        match rest with
        | '+' :: digits => dropDigits? digits
        | '-' :: digits => dropDigits? digits
        | digits => dropDigits? digits
      else some letters
  | [] => some []

/-- Drops the whole part of a number. It has no zero in front of other digits. -/
def dropWhole? (letters : List Char) : Option (List Char) :=
  match letters with
  | '0' :: rest => some rest
  | other => dropDigits? other

/-- A number with a sign, a fraction or an exponent, or a plain natural number. -/
def isNumber (letters : List Char) : Bool :=
  let unsigned := match letters with
    | '-' :: rest => rest
    | other => other
  (dropWhole? unsigned >>= dropFraction? >>= dropExponent?) == some []

/-- The value of a row of decimal digits. -/
def natOfDigits (digits : List Char) : Nat :=
  digits.foldl (fun value c => 10 * value + (c.toNat - 48)) 0

/-- The value that a run of letters, digits and signs stands for. -/
def scalar? (letters : List Char) : Option Json :=
  if letters = ['n', 'u', 'l', 'l'] then some .null
  else if letters = ['t', 'r', 'u', 'e'] then some (.bool true)
  else if letters = ['f', 'a', 'l', 's', 'e'] then some (.bool false)
  else if isNumber letters then
    if letters.all Char.isDigit then some (.nat (natOfDigits letters))
    else some (.number (String.ofList letters))
  else none

/-- A character that can belong to a number or a word. -/
def isWordChar (c : Char) : Bool :=
  c.isAlphanum || c == '-' || c == '+' || c == '.'

namespace Lexer

def start : Lexer :=
  ⟨.between, []⟩

/-- Takes a character that is not inside any token. -/
def enter (tokens : List Token) (c : Char) : Option Lexer :=
  match c with
  | ' ' | '\n' | '\r' | '\t' => some ⟨.between, tokens⟩
  | '[' => some ⟨.between, .openArray :: tokens⟩
  | ']' => some ⟨.between, .closeArray :: tokens⟩
  | '\x7b' => some ⟨.between, .openObject :: tokens⟩
  | '\x7d' => some ⟨.between, .closeObject :: tokens⟩
  | ',' => some ⟨.between, .comma :: tokens⟩
  | ':' => some ⟨.between, .colon :: tokens⟩
  | '"' => some ⟨.string [], tokens⟩
  | other => if isWordChar other then some ⟨.word [other], tokens⟩ else none

/-- Takes the next character of the text. -/
def step (lexer : Lexer) (c : Char) : Option Lexer :=
  match lexer.mode with
  | .between => enter lexer.tokens c
  | .string units =>
      if c == '"' then some ⟨.between, .string (joinUnits [] units.reverse) :: lexer.tokens⟩
      else if c == '\\' then some ⟨.escape units, lexer.tokens⟩
      else if c < ' ' then none
      else some ⟨.string (c.toNat :: units), lexer.tokens⟩
  | .escape units =>
      if c == 'u' then some ⟨.unicode units 4 0, lexer.tokens⟩
      else (shortEscape? c).map fun meant => ⟨.string (meant.toNat :: units), lexer.tokens⟩
  | .unicode units digits value =>
      (Text.hexDigit? c).map fun digit =>
        if digits ≤ 1 then ⟨.string ((16 * value + digit) :: units), lexer.tokens⟩
        else ⟨.unicode units (digits - 1) (16 * value + digit), lexer.tokens⟩
  | .word letters =>
      if isWordChar c then some ⟨.word (c :: letters), lexer.tokens⟩
      else do
        let value ← scalar? letters.reverse
        enter (.scalar value :: lexer.tokens) c

/-- The tokens, once the text has ended. -/
def finish (lexer : Lexer) : Option (List Token) :=
  match lexer.mode with
  | .between => some lexer.tokens.reverse
  | .word letters => do
      let value ← scalar? letters.reverse
      return (.scalar value :: lexer.tokens).reverse
  | _ => none

end Lexer

/-- The tokens of a text, or nothing if some part of it is no token. -/
def tokens? (text : List Char) : Option (List Token) := do
  (← text.foldlM Lexer.step Lexer.start).finish

end MoveModule.Json
