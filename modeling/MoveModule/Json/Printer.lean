import MoveModule.Json.Basic
import MoveModule.Text.Quoted

/-! Documents as text. There are two layouts, one without any blank and one with
a line for every item. They differ only in the blanks between tokens. -/
namespace MoveModule.Json

inductive Layout
  | compact
  | indented
deriving DecidableEq, Repr

namespace Layout

/-- What stands before an item at the given depth. -/
def lineBreak : Layout → Nat → String
  | compact, _ => ""
  | indented, depth => "\n" ++ String.ofList (List.replicate (2 * depth) ' ')

/-- What stands between a name and its value. -/
def colon : Layout → String
  | compact => ":"
  | indented => ": "

end Layout

/-- How a character is written inside a string. -/
def escaped (c : Char) : String :=
  if c == '"' then "\\\""
  else if c == '\\' then "\\\\"
  else if c == '\n' then "\\n"
  else if c == '\r' then "\\r"
  else if c == '\t' then "\\t"
  else if c == '\x08' then "\\b"
  else if c == '\x0c' then "\\f"
  else if c < '\x10' then "\\u000" ++ Text.hexadecimal c.toNat
  else if c < ' ' then "\\u00" ++ Text.hexadecimal c.toNat
  else c.toString

/-- Adds a string to what is already written. One that denotes no text is written
as half of a surrogate pair. -/
def appendString (written : String) : Option String → String
  | some text =>
      (text.toList.foldl (fun sofar c => sofar ++ escaped c) (written.push '"')).push '"'
  | none => written ++ "\"\\ud800\""

mutual

/-- Adds a document to what is already written. `depth` counts the arrays and
objects around it. -/
def append (layout : Layout) (depth : Nat) (written : String) : Json → String
  | .null => written ++ "null"
  | .bool true => written ++ "true"
  | .bool false => written ++ "false"
  | .nat value => written ++ toString value
  | .number literal => written ++ literal
  | .string text => appendString written text
  | .array [] => written ++ "[]"
  | .array (first :: rest) =>
      let opened := written.push '[' ++ layout.lineBreak (depth + 1)
      let items := appendItems layout (depth + 1) (append layout (depth + 1) opened first) rest
      (items ++ layout.lineBreak depth).push ']'
  | .object [] => written ++ "\x7b\x7d"
  | .object ((name, first) :: rest) =>
      let opened := written.push '\x7b' ++ layout.lineBreak (depth + 1)
      let named := appendString opened name ++ layout.colon
      let members := appendMembers layout (depth + 1) (append layout (depth + 1) named first) rest
      (members ++ layout.lineBreak depth).push '\x7d'

def appendItems (layout : Layout) (depth : Nat) (written : String) : List Json → String
  | [] => written
  | item :: rest =>
      let separated := written.push ',' ++ layout.lineBreak depth
      appendItems layout depth (append layout depth separated item) rest

def appendMembers (layout : Layout) (depth : Nat) (written : String) :
    List (Option String × Json) → String
  | [] => written
  | (name, value) :: rest =>
      let separated := written.push ',' ++ layout.lineBreak depth
      let named := appendString separated name ++ layout.colon
      appendMembers layout depth (append layout depth named value) rest

end

/-- A document as text. -/
def render (layout : Layout) (document : Json) : String :=
  append layout 0 "" document

/-- A document without blanks. -/
def compact (document : Json) : String :=
  render .compact document

/-- A document with a line for every item, indented by two spaces for each level. -/
def pretty (document : Json) : String :=
  render .indented document

end MoveModule.Json
