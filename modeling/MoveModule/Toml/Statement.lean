import MoveModule.Toml.Scan
import MoveModule.Toml.Table

/-! The lines of a document that say something. Each opens a table, opens a further
table of a list, or gives a value to a key. -/
namespace MoveModule.Toml

inductive Statement
  | header (path : List String)
  | nextHeader (path : List String)
  | assignment (key : List String) (value : Toml)

/-- How deep lists and tables may be nested in a value. -/
def maxNesting : Nat := 79

/-- How many names a key may have. -/
def maxKeyLength : Nat := 79

namespace Scan

/-- A character of a name without quotes. -/
def isBare (c : Char) : Bool :=
  c.isAlphanum || c == '_' || c == '-'

/-- One name, with or without quotes. -/
def name : Scan String := fun text =>
  match lineString? text with
  | some result => some result
  | none =>
      let (bare, rest) := text.span isBare
      if bare.isEmpty then none else some (String.ofList bare, rest)

/-- Names with dots between them, at most so many. -/
def names : (limit : Nat) → Scan (List String)
  | 0 => failure
  | limit + 1 => do
      blanks
      let first ← name
      blanks
      if ← accept '.' then return first :: (← names limit)
      return [first]

def key : Scan (List String) :=
  names maxKeyLength

/-- The items of a list after its opening bracket. -/
def items (item : Scan Toml) : Scan (List Toml) :=
  iterate (fun before => do
    gap
    if ← accept ']' then return .inr before.reverse
    let next := (← item) :: before
    gap
    if ← accept ',' then return .inl next
    expect ']'
    return .inr next.reverse) []

/-- A key, the sign after it, and its value. -/
def assignment (item : Scan Toml) : Scan (List String × Toml) := do
  let path ← key
  expect '='
  blanks
  return (path, ← item)

/-- The entries of a table after its opening brace, all on one line. -/
def entries (item : Scan Toml) : Scan Entries := do
  blanks
  if ← accept '\x7d' then return []
  iterate (fun before => do
    let (path, value) ← assignment item
    blanks
    let next ← (Entries.assign? path value .header before : Option Entries)
    if ← accept ',' then return .inl next
    expect '\x7d'
    return .inr next) []

/-- A character of a number or a truth value. -/
def isWordChar (c : Char) : Bool :=
  isBare c || c == '+' || c == '.'

/-- A number or a truth value. -/
def word : Scan Toml := fun text => do
  let (letters, rest) := text.span isWordChar
  if letters == ['t', 'r', 'u', 'e'] then return (.boolean true, rest)
  if letters == ['f', 'a', 'l', 's', 'e'] then return (.boolean false, rest)
  return (.number (← Number.ofWord? letters), rest)

/-- A value that holds no other values. -/
def leaf : Scan Toml :=
  (Toml.string <$> (string? : Scan String)) <|> (Toml.date <$> Moment.read) <|> word

/-- A value, in which at most so many levels may be opened. -/
def value : (levels : Nat) → Scan Toml
  | 0 => leaf
  | levels + 1 => do
      if ← accept '[' then return .array (← items (value levels))
      if ← accept '\x7b' then return .inline (← entries (value levels))
      leaf

/-- A line with a statement. -/
def statement : Scan Statement := do
  if ← accept '[' then
    if ← accept '[' then
      let path ← key
      expect ']'
      expect ']'
      lineEnd
      return .nextHeader path
    let path ← key
    expect ']'
    lineEnd
    return .header path
  let (path, value) ← assignment (value maxNesting)
  lineEnd
  return .assignment path value

/-- All statements of a document. -/
def document : Scan (List Statement) :=
  iterate (fun before => do
    gap
    if (← get).isEmpty then return .inr before.reverse
    return .inl ((← statement) :: before)) []

end Scan

end MoveModule.Toml
