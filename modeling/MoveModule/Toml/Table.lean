import MoveModule.Toml.Basic

/-! How the tables of a document grow. No name is given a value twice, and what was
written out in one place is not added to later. -/
namespace MoveModule.Toml

/-- The entries of a table in the order in which they were made. -/
abbrev Entries : Type :=
  List (String × Toml)

namespace Entries

/-- Gives a name another value, or a first one. -/
def put (name : String) (value : Toml) : Entries → Entries
  | [] => [(name, value)]
  | (other, old) :: rest =>
      if other == name then (name, value) :: rest else (other, old) :: put name value rest

/-- Adds a value under a new name. -/
def insert? (name : String) (value : Toml) (entries : Entries) : Option Entries :=
  match entries.lookup name with
  | none => some (entries.put name value)
  | some _ => none

/-- Changes the table that a path leads to, and makes tables of the given origin
where the path meets none. A list of tables stands for its last one. Through the
dots of a key only such tables can be reached that no line has opened. -/
def changeAt? (made : Origin) (change : Origin → Entries → Option Entries) :
    List String → Origin → Entries → Option Entries
  | [], origin, entries => change origin entries
  | name :: path, _, entries =>
      match entries.lookup name with
      | none => do
          return entries.put name (.table made (← changeAt? made change path made []))
      | some (.table origin inner) =>
          if made == .dotted && origin == .header then none
          else do
            return entries.put name (.table origin (← changeAt? made change path origin inner))
      | some (.tables (last :: before)) => do
          let changed ← changeAt? made change path .header last
          return entries.put name (.tables (changed :: before))
      | some _ => none

/-- Splits a path into the way to a table and the name in it. -/
def splitLast? : List String → Option (List String × String)
  | [] => none
  | [name] => some ([], name)
  | name :: rest => (splitLast? rest).map fun (path, last) => (name :: path, last)

/-- Gives a value to a key. The tables on its way have to be made by keys, and a
table that was made by keys is only reached by them. -/
def assign? (key : List String) (value : Toml) (origin : Origin) (entries : Entries) :
    Option Entries := do
  let (path, name) ← splitLast? key
  let add (origin : Origin) (entries : Entries) : Option Entries :=
    if path.isEmpty || origin == .dotted then entries.insert? name value else none
  changeAt? .dotted add path origin entries

/-- Opens a table. It may be there already for the sake of tables inside of it. -/
def openTable? (header : List String) (entries : Entries) : Option Entries := do
  let (path, name) ← splitLast? header
  let change (_ : Origin) (entries : Entries) : Option Entries :=
    match entries.lookup name with
    | none => some (entries.put name (.table .header []))
    | some (.table .implied inner) => some (entries.put name (.table .header inner))
    | some _ => none
  changeAt? .implied change path .header entries

/-- Opens a further table of a list of tables. -/
def openNext? (header : List String) (entries : Entries) : Option Entries := do
  let (path, name) ← splitLast? header
  let change (_ : Origin) (entries : Entries) : Option Entries :=
    match entries.lookup name with
    | none => some (entries.put name (.tables [[]]))
    | some (.tables before) => some (entries.put name (.tables ([] :: before)))
    | some _ => none
  changeAt? .implied change path .header entries

/-- Gives a value to a key of the table that was opened last. -/
def assignUnder? (header key : List String) (value : Toml) (entries : Entries) :
    Option Entries :=
  changeAt? .implied (assign? key value) header .header entries

end Entries

end MoveModule.Toml
