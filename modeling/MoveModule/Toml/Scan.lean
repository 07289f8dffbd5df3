import MoveModule.Toml.Text

/-! Reading a text from its front, as far as the parts of a document have it in common. -/
namespace MoveModule.Toml

/-- Reading from the front of a text, or refusing it. -/
abbrev Scan (α : Type) := StateT (List Char) Option α

namespace Scan

/-- Takes steps until one of them gives a result. A step takes a character or more
unless it is the last, so there are no more of them than characters. -/
def iterate {σ α : Type} (step : σ → Scan (σ ⊕ α)) (start : σ) : Scan α := fun text =>
  loop (text.length + 1) start text
where
  /-- Takes at most `limit` steps. -/
  loop : (limit : Nat) → σ → Scan α
    | 0, _ => failure
    | limit + 1, state => do
        match ← step state with
        | .inl next => loop limit next
        | .inr result => return result

def blanks : Scan Unit :=
  modify fun text => text.dropWhile isBlank

/-- Whether the text starts with a character, which is then dropped. -/
def accept (c : Char) : Scan Bool := fun text =>
  match text with
  | first :: rest => some (if first == c then (true, rest) else (false, text))
  | [] => some (false, [])

/-- Drops a character that has to be there. -/
def expect (c : Char) : Scan Unit := do
  if !(← accept c) then failure

/-- The rest of a line, which may hold blanks and a comment. -/
def lineEnd : Scan Unit := fun text =>
  let rest := match text.dropWhile isBlank with
    | '#' :: comment => comment.dropWhile isPlain
    | other => other
  match rest with
  | [] => some ((), [])
  | rest => (newline? rest).map fun next => ((), next)

/-- Drops blanks, line ends and comments. -/
def dropGap (inComment : Bool) : List Char → List Char
  | [] => []
  | '\n' :: rest => dropGap false rest
  | '\r' :: '\n' :: rest => dropGap false rest
  | c :: rest =>
      if inComment then if isPlain c then dropGap true rest else c :: rest
      else if isBlank c then dropGap false rest
      else if c == '#' then dropGap true rest
      else c :: rest

/-- What may stand between the items of a list. -/
def gap : Scan Unit :=
  modify (dropGap false)

/-- A character with a property. -/
def satisfying (property : Char → Bool) : Scan Char := fun text =>
  match text with
  | c :: rest => if property c then some (c, rest) else none
  | [] => none

/-- The number that exactly so many decimal digits spell. -/
def number (width : Nat) : Scan Nat := fun text => do
  let digits ← (text.take width).mapM Text.decimalDigit?
  if digits.length < width then none
  return (Text.ofDigits 10 digits, text.drop width)

/-- One decimal digit or more. -/
def digits : Scan (List Nat) := fun text => do
  let (row, rest) := text.span Char.isDigit
  if row.isEmpty then none
  return (← row.mapM Text.decimalDigit?, rest)

end Scan

end MoveModule.Toml
