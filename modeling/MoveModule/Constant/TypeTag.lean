import MoveModule.Constant.Type
import MoveModule.Text.Blank

/-! Type tags, which are the names of constant types as a user writes them. The
name of a type that is no vector may start with a small letter. Vectors have round
brackets, or angle brackets behind a small letter. There may be blanks around every
type. -/
namespace MoveModule.ConstantType

/-- The type that a word without brackets names. -/
def ofWord? (word : List Char) : Option ConstantType :=
  match word with
  | [] => none
  | first :: rest => ofName? (String.ofList (first.toUpper :: rest))

/-- The text between the brackets of a vector. -/
def vectorItem? (text : List Char) : Option (List Char) :=
  match Text.unwrap? "Vector(".toList ")".toList text with
  | some item => some item
  | none => Text.unwrap? "vector<".toList ">".toList text

/-- Reads a type when `levels` of them may still be nested and `outer` vectors are
already around it. -/
def ofTagWithin? : (levels outer : Nat) → List Char → Option ConstantType
  | 0, _, _ => none
  | levels + 1, outer, text =>
      let text := Text.trim text
      match vectorItem? text with
      | some item => ofTagWithin? levels (outer + 1) item
      | none => (ofWord? text).map (wrap outer)

/-- The type that a tag names. -/
def ofTag? (tag : String) : Option ConstantType :=
  ofTagWithin? maxTokenDepth 0 tag.toList

end MoveModule.ConstantType
