import MoveModule.Binary.Codec
import MoveModule.Json.Form

/-! The names of modules, structs, fields and functions. A name starts with a
letter or an underscore, goes on with letters, digits and underscores, and is
not a lone underscore. Letters and digits are those of ASCII. -/
namespace MoveModule

/-- Whether a character may follow the first one of a name. -/
def isIdentifierChar (c : Char) : Bool :=
  c.isAlphanum || c == '_'

def isIdentifier (text : String) : Bool :=
  match text.toList with
  | [] => false
  | first :: rest =>
      (first.isAlpha || (first == '_' && !rest.isEmpty)) && rest.all isIdentifierChar

structure Identifier where
  text : String
  valid : isIdentifier text = true
deriving DecidableEq, Repr

/-- A text that breaks the grammar of names. -/
structure InvalidIdentifier where
  text : String
deriving DecidableEq, Repr

def InvalidIdentifier.message (error : InvalidIdentifier) : String :=
  s!"Invalid identifier {Text.quoted error.text}"

namespace Identifier

def ofString? (text : String) : Option Identifier :=
  if h : isIdentifier text = true then some ⟨text, h⟩ else none

def ofString (text : String) : Except InvalidIdentifier Identifier :=
  match ofString? text with
  | some identifier => .ok identifier
  | none => .error ⟨text⟩

/-- A text with its length in front. A text that is no name is reported at the
place of its length. -/
def codec : Binary.Codec Identifier where
  write identifier := Binary.Codec.byteString.write (Text.bytes identifier.text)
  read _ := do
    let start ← Binary.Read.offset
    let text ← Binary.Read.text
    match ofString? text with
    | some identifier => return identifier
    | none => throw (.invalidIdentifier text start)

def form : Json.Form Identifier :=
  Json.Form.text.filterMap ofString? text

end Identifier

end MoveModule
