import MoveModule.Toml.Date
import MoveModule.Toml.Number

/-! Documents in TOML. A document is a table of named values. Tables and lists of
tables that a document builds up line by line are kept apart from those that are
written out in one place, because only the former can be added to later. -/
namespace MoveModule

/-- How a table of a document came to be. -/
inductive Toml.Origin
  /-- By a line that opens it. -/
  | header
  /-- By a line that opens a table inside of it. -/
  | implied
  /-- By a key with dots. -/
  | dotted
deriving DecidableEq, Repr

inductive Toml
  | string (text : String)
  | boolean (value : Bool)
  | number (value : Toml.Number)
  | date (moment : Toml.Moment)
  | array (items : List Toml)
  /-- A table that is written out in one place. -/
  | inline (entries : List (String × Toml))
  /-- A table that is built up by the lines of a document. -/
  | table (origin : Toml.Origin) (entries : List (String × Toml))
  /-- A list of tables that is built up by the lines of a document. Each table is
  held as its entries, from the last table back. -/
  | tables (reversed : List (List (String × Toml)))

namespace Toml

/-- The text of a string. -/
def text? : Toml → Option String
  | string text => some text
  | _ => none

/-- The name under which a date can be found that is looked at as a table. -/
def dateKey : String :=
  "$__toml_private_datetime"

/-- The entries of a table. A date has its text as its one entry. -/
def entries? : Toml → Option (List (String × Toml))
  | date moment => some [(dateKey, string moment.display)]
  | inline entries => some entries
  | table _ entries => some entries
  | _ => none

/-- The items of a list in their order. -/
def items? : Toml → Option (List Toml)
  | array items => some items
  | tables reversed => some (reversed.reverse.map inline)
  | _ => none

end Toml

end MoveModule
