/-! Blank characters, and text with the blank ends cut off. The class is the one
the Unicode standard calls white space. It is wider than `Char.isWhitespace`,
which knows four ASCII characters. -/
namespace MoveModule.Text

/-- White space in the sense of the Unicode standard. -/
def isBlank (c : Char) : Bool :=
  let code := c.toNat
  (9 ≤ code && code ≤ 13) || code == 0x20 || code == 0x85 || code == 0xA0 || code == 0x1680 ||
  (0x2000 ≤ code && code ≤ 0x200A) || code == 0x2028 || code == 0x2029 || code == 0x202F ||
  code == 0x205F || code == 0x3000

/-- What is left when the blanks at both ends are dropped. -/
def trim (text : List Char) : List Char :=
  ((text.dropWhile isBlank).reverse.dropWhile isBlank).reverse

/-- Dropping `before` from the front of `text` and `after` from its end, when
both are there and do not overlap. -/
def unwrap? (before after text : List Char) : Option (List Char) :=
  match List.isPrefixOf? before text with
  | none => none
  | some rest => (List.isPrefixOf? after.reverse rest.reverse).map List.reverse

end MoveModule.Text
