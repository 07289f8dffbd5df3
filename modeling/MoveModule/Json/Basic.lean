/-! Documents in JSON. Natural numbers are kept apart from all other numbers,
because no value of this library is written with a sign, a fraction or an
exponent. Members of an object stay in the order in which they were written, and
a name may occur more than once. -/
namespace MoveModule

inductive Json
  | null
  | bool (value : Bool)
  | nat (value : Nat)
  /-- A number with a sign, a fraction or an exponent, as it was written. -/
  | number (literal : String)
  /-- A string. One whose escapes name half of a surrogate pair is well formed
  and denotes no text. -/
  | string (text : Option String)
  | array (items : List Json)
  | object (members : List (Option String × Json))

namespace Json

/-- A string that denotes a text. -/
def text (content : String) : Json :=
  .string (some content)

/-- An object with one member, which is how a value with a payload is written. -/
def variant (name : String) (payload : Json) : Json :=
  .object [(some name, payload)]

mutual

/-- How deep arrays and objects are nested. -/
def nesting : Json → Nat
  | .array items => itemsNesting items + 1
  | .object members => membersNesting members + 1
  | _ => 0

def itemsNesting : List Json → Nat
  | [] => 0
  | item :: rest => max (nesting item) (itemsNesting rest)

def membersNesting : List (Option String × Json) → Nat
  | [] => 0
  | (_, value) :: rest => max (nesting value) (membersNesting rest)

end

end Json

end MoveModule
