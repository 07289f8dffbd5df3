import MoveModule.Json.Basic

/-! A form is one way to say the values of a type as documents, given by how a
value is written and how it is read back. Reading is told how many levels of
arrays and objects may still be opened. Parts that no field asks for are not
looked at, however deep they are. -/
namespace MoveModule.Json

/-- How many levels a whole document may have. -/
def maxNesting : Nat := 127

structure Form (α : Type) where
  write : α → Json
  read : (levels : Nat) → Json → Option α

namespace Form

variable {α β : Type}

/-- Reads a whole document. -/
def read? (form : Form α) (document : Json) : Option α :=
  form.read maxNesting document

/-- A value of one type in the form of another, refused where it has no meaning. -/
def filterMap (form : Form α) (into? : α → Option β) (back : β → α) : Form β where
  write value := form.write (back value)
  read levels document := form.read levels document >>= into?

/-- A value of one type in the form of another. -/
def map (form : Form α) (into : α → β) (back : β → α) : Form β :=
  form.filterMap (fun value => some (into value)) back

def bool : Form Bool where
  write value := .bool value
  read
    | _, .bool value => some value
    | _, _ => none

/-- A natural number that a type holds, given by how it is put into the type and
taken out again. -/
def number (into : Nat → α) (back : α → Nat) : Form α where
  write value := .nat (back value)
  read
    | _, .nat value => if back (into value) = value then some (into value) else none
    | _, _ => none

def uint8 : Form UInt8 :=
  number UInt8.ofNat UInt8.toNat

def uint16 : Form UInt16 :=
  number UInt16.ofNat UInt16.toNat

def uint32 : Form UInt32 :=
  number UInt32.ofNat UInt32.toNat

def uint64 : Form UInt64 :=
  number UInt64.ofNat UInt64.toNat

def bitVec (width : Nat) : Form (BitVec width) :=
  number (BitVec.ofNat width) BitVec.toNat

def text : Form String where
  write value := Json.text value
  read
    | _, .string content => content
    | _, _ => none

/-- One of several names. A name may also be written as the only member of an
object, with nothing as its value. -/
def name (nameOf : α → String) (ofName? : String → Option α) : Form α where
  write value := Json.text (nameOf value)
  read
    | _, .string (some name) => ofName? name
    | _ + 1, .object [(some name, .null)] => ofName? name
    | _, _ => none

def list (form : Form α) : Form (List α) where
  write items := .array (items.map form.write)
  read
    | levels + 1, .array items => items.mapM (form.read levels)
    | _, _ => none

def array (form : Form α) : Form (Array α) :=
  form.list.map List.toArray Array.toList

/-- Two values as an array. -/
def pair (first : Form α) (second : Form β) : Form (α × β) where
  write value := .array [first.write value.1, second.write value.2]
  read
    | levels + 1, .array [a, b] => do
        return (← first.read levels a, ← second.read levels b)
    | _, _ => none

end Form

/-- The fields of a record in their order. Reading takes the slots of its own
fields from the front; the slot of a field that is missing holds nothing. -/
structure Fields (α : Type) where
  names : List String
  write : α → List Json
  read : (levels : Nat) → List (Option Json) → Option (α × List (Option Json))

namespace Fields

variable {α β : Type}

/-- A field that has to be there. -/
def required (name : String) (form : Form α) : Fields α where
  names := [name]
  write value := [form.write value]
  read
    | levels, some document :: slots => do return (← form.read levels document, slots)
    | _, _ => none

/-- A field that stands for `default` where it is missing. -/
def withDefault (name : String) (default : α) (form : Form α) : Fields α where
  names := [name]
  write value := [form.write value]
  read
    | levels, some document :: slots => do return (← form.read levels document, slots)
    | _, none :: slots => some (default, slots)
    | _, [] => none

/-- A field that may be missing or hold nothing. -/
def optional (name : String) (form : Form α) : Fields (Option α) where
  names := [name]
  write
    | some value => [form.write value]
    | none => [.null]
  read
    | _, some .null :: slots => some (none, slots)
    | levels, some document :: slots => do return (some (← form.read levels document), slots)
    | _, none :: slots => some (none, slots)
    | _, [] => none

/-- The fields of one record and then those of another. -/
def and (first : Fields α) (second : Fields β) : Fields (α × β) where
  names := first.names ++ second.names
  write value := first.write value.1 ++ second.write value.2
  read levels slots := do
    let (a, slots) ← first.read levels slots
    let (b, slots) ← second.read levels slots
    return ((a, b), slots)

/-- The slots of named fields in the members of an object. A known name may not
occur twice; unknown names are passed over. -/
def slots? (names : List String) (members : List (Option String × Json)) :
    Option (List (Option Json)) :=
  if members.all (fun member => member.1.isSome) &&
      names.all (fun name => members.countP (fun member => member.1 == some name) ≤ 1) then
    some (names.map fun name => members.lookup (some name))
  else none

/-- A record as an object, or as the array of all its fields in their order. -/
def form (fields : Fields α) : Form α where
  write value := .object ((fields.names.map some).zip (fields.write value))
  read
    | levels + 1, .object members => do
        match ← fields.read levels (← slots? fields.names members) with
        | (value, []) => some value
        | _ => none
    | levels + 1, .array items =>
        match fields.read levels (items.map some) with
        | some (value, []) => some value
        | _ => none
    | _, _ => none

end Fields

end MoveModule.Json
