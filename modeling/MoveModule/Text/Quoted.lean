import MoveModule.Text.Printable

/-! Text between quotes, with escapes for whatever could not be read back from
the screen: the quote itself, the backslash, line ends and every character that
does not stand for itself. -/
namespace MoveModule.Text

/-- A number in base sixteen, in lowercase and without leading zeros. -/
def hexadecimal (n : Nat) : String :=
  String.ofList (Nat.toDigits 16 n)

/-- A byte in base sixteen with its two digits, marked as such. -/
def hexByte (byte : UInt8) : String :=
  let digits := hexadecimal byte.toNat
  if byte < 16 then "0x0" ++ digits else "0x" ++ digits

/-- How a character is written between two quotes of the given kind. -/
def escaped (quote : Char) (c : Char) : String :=
  if c == '\x00' then "\\0"
  else if c == '\t' then "\\t"
  else if c == '\n' then "\\n"
  else if c == '\r' then "\\r"
  else if c == '\\' || c == quote then "\\" ++ c.toString
  else if isPrintable c then c.toString
  else "\\u\x7b" ++ hexadecimal c.toNat ++ "\x7d"

/-- A text in double quotes. -/
def quoted (text : String) : String :=
  text.toList.foldl (fun shown c => shown ++ escaped '"' c) "\"" ++ "\""

/-- A character in single quotes. -/
def quotedChar (c : Char) : String :=
  "'" ++ escaped '\'' c ++ "'"

end MoveModule.Text
