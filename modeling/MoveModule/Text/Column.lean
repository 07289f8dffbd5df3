/-! Text in columns. A text that is as wide as its column or wider stays as it is. -/
namespace MoveModule.Text

/-- Blanks that fill up a text to a width. -/
def fill (width : Nat) (text : String) : String :=
  String.ofList (List.replicate (width - text.length) ' ')

/-- A text at the left side of a column. -/
def atLeft (width : Nat) (text : String) : String :=
  text ++ fill width text

/-- A text at the right side of a column. -/
def atRight (width : Nat) (text : String) : String :=
  fill width text ++ text

end MoveModule.Text
