import MoveModule.Text.Digit

/-! The four kinds of strings. Strings between double quotes have escapes, strings
between single quotes have none, and both kinds may run over several lines when
they start with three quotes. -/
namespace MoveModule.Toml

/-- The blanks that may stand between the parts of a line. -/
def isBlank (c : Char) : Bool :=
  c == ' ' || c == '\t'

/-- A character that may stand in a comment, and in a string unless it ends it. -/
def isPlain (c : Char) : Bool :=
  c == '\t' || (' ' ≤ c && c != '\x7f')

/-- The character that a letter after a backslash stands for. -/
def shortEscape? (c : Char) : Option Char :=
  match c with
  | 'b' => some '\x08'
  | 't' => some '\t'
  | 'n' => some '\n'
  | 'f' => some '\x0c'
  | 'r' => some '\r'
  | '"' => some '"'
  | '\\' => some '\\'
  | _ => none

/-- The character that is named by the next `count` digits. -/
def numbered? (count : Nat) (text : List Char) : Option (Char × List Char) := do
  let digits := text.take count
  if digits.length < count then none
  return (← Text.codePoint? digits, text.drop count)

/-- What follows a backslash, with the character it stands for. -/
def escape? : List Char → Option (Char × List Char)
  | [] => none
  | letter :: rest =>
      if letter == 'u' then numbered? 4 rest
      else if letter == 'U' then numbered? 8 rest
      else (shortEscape? letter).map fun meant => (meant, rest)

theorem length_of_numbered? {count : Nat} {text rest : List Char} {c : Char}
    (h : numbered? count text = some (c, rest)) : rest.length ≤ text.length := by
  simp only [numbered?] at h
  split at h
  · cases h
  · obtain ⟨_, _, hPair⟩ := Option.bind_eq_some_iff.1 h
    cases hPair
    rw [List.length_drop]
    exact Nat.sub_le _ _

theorem length_of_escape? {text rest : List Char} {c : Char} (h : escape? text = some (c, rest)) :
    rest.length < text.length := by
  cases text with
  | nil => cases h
  | cons letter tail =>
      rw [List.length_cons, Nat.lt_succ_iff]
      simp only [escape?] at h
      split at h
      · exact length_of_numbered? h
      · split at h
        · exact length_of_numbered? h
        · obtain ⟨_, _, hPair⟩ := Option.map_eq_some_iff.1 h
          cases hPair
          exact Nat.le_refl _

/-- Drops one line end, if the text starts with one. -/
def newline? (text : List Char) : Option (List Char) :=
  if text.take 1 = ['\n'] then some (text.drop 1)
  else if text.take 2 = ['\r', '\n'] then some (text.drop 2)
  else none

theorem length_of_newline? {text rest : List Char} (h : newline? text = some rest) :
    rest.length < text.length := by
  cases text with
  | nil => cases h
  | cons c tail =>
      simp only [newline?] at h
      split at h
      · cases h
        exact Nat.lt_succ_self _
      · split at h
        · cases h
          rw [List.length_drop, List.length_cons]
          omega
        · cases h

/-- Drops blanks and the line end after them. -/
def blankLineEnd? (text : List Char) : Option (List Char) :=
  newline? (text.dropWhile isBlank)

theorem length_of_blankLineEnd? {text rest : List Char} (h : blankLineEnd? text = some rest) :
    rest.length < text.length :=
  Nat.lt_of_lt_of_le (length_of_newline? h) (List.dropWhile_suffix isBlank).length_le

/-- One character of a string with escapes, and what follows it. -/
def character? : List Char → Option (Char × List Char)
  | [] => none
  | c :: rest =>
      if c == '\\' then escape? rest
      else if isPlain c then some (c, rest)
      else none

theorem length_of_character? {text rest : List Char} {c : Char}
    (h : character? text = some (c, rest)) : rest.length < text.length := by
  cases text with
  | nil => cases h
  | cons first tail =>
      rw [List.length_cons, Nat.lt_succ_iff]
      simp only [character?] at h
      split at h
      · exact Nat.le_of_lt (length_of_escape? h)
      · split at h
        · cases h
          exact Nat.le_refl _
        · cases h

/-- A string with escapes on one line, after its first quote. -/
def basic? (sofar text : List Char) : Option (String × List Char) :=
  if text.head? = some '"' then some (String.ofList sofar.reverse, text.tail)
  else
    match h : character? text with
    | some (c, rest) =>
        have := length_of_character? h
        basic? (c :: sofar) rest
    | none => none
termination_by text.length

/-- Up to two quotes may stand before the three that end a string. -/
def closing? (quote : Char) : List Char → Option (List Char × List Char)
  | a :: b :: c :: d :: e :: rest =>
      if [a, b, c] != [quote, quote, quote] then none
      else if d != quote then some ([], d :: e :: rest)
      else if e != quote then some ([quote], e :: rest)
      else some ([quote, quote], rest)
  | [a, b, c, d] =>
      if [a, b, c] != [quote, quote, quote] then none
      else if d != quote then some ([], [d])
      else some ([quote], [])
  | text => if text == [quote, quote, quote] then some ([], []) else none

/-- A stretch of a string on several lines. -/
structure Piece where
  /-- The characters that the stretch stands for. -/
  content : List Char
  /-- Whether the blanks and line ends that follow are dropped. -/
  joins : Bool

/-- What a backslash at the end of a line drops. -/
def joint? (text : List Char) : Option (List Char) :=
  if text.head? = some '\\' then blankLineEnd? text.tail else none

theorem length_of_joint? {text rest : List Char} (h : joint? text = some rest) :
    rest.length < text.length := by
  simp only [joint?] at h
  split at h
  · have hRest := length_of_blankLineEnd? h
    rw [List.length_tail] at hRest
    omega
  · cases h

/-- A line end, a blank, a joint of lines or one character. Line ends and blanks count
for nothing where lines are joined. -/
def piece? (joining : Bool) (text : List Char) : Option (Piece × List Char) :=
  match newline? text with
  | some rest => some (⟨if joining then [] else ['\n'], joining⟩, rest)
  | none =>
      match joint? text with
      | some rest => some (⟨[], true⟩, rest)
      | none =>
          (character? text).map fun (c, rest) =>
            if joining && isBlank c && text.head? = some c then (⟨[], true⟩, rest)
            else (⟨[c], false⟩, rest)

theorem length_of_piece? {joining : Bool} {text rest : List Char} {piece : Piece}
    (h : piece? joining text = some (piece, rest)) : rest.length < text.length := by
  unfold piece? at h
  cases hNewline : newline? text with
  | some next =>
      rw [hNewline] at h
      cases h
      exact length_of_newline? hNewline
  | none =>
      cases hJoint : joint? text with
      | some next =>
          rw [hNewline, hJoint] at h
          cases h
          exact length_of_joint? hJoint
      | none =>
          rw [hNewline, hJoint] at h
          obtain ⟨⟨c, next⟩, hNext, hPiece⟩ := Option.map_eq_some_iff.1 h
          have hRest : next = rest := by
            dsimp only at hPiece
            split at hPiece <;> exact congrArg Prod.snd hPiece
          exact hRest ▸ length_of_character? hNext

/-- A string with escapes on several lines, after its first quotes. -/
def multilineBasic? (joining : Bool) (sofar text : List Char) : Option (String × List Char) :=
  match closing? '"' text with
  | some (quotes, rest) => some (String.ofList (quotes ++ sofar).reverse, rest)
  | none =>
      match h : piece? joining text with
      | some (piece, rest) =>
          have := length_of_piece? h
          multilineBasic? piece.joins (piece.content ++ sofar) rest
      | none => none
termination_by text.length

/-- A string without escapes on one line, after its first quote. -/
def literal? (sofar : List Char) : List Char → Option (String × List Char)
  | [] => none
  | c :: rest =>
      if c == '\'' then some (String.ofList sofar.reverse, rest)
      else if isPlain c then literal? (c :: sofar) rest
      else none

/-- One character or line end of a string without escapes, and what follows it. -/
def literalPiece? (text : List Char) : Option (Char × List Char) :=
  match newline? text with
  | some rest => some ('\n', rest)
  | none =>
      match text with
      | c :: rest => if isPlain c then some (c, rest) else none
      | [] => none

theorem length_of_literalPiece? {text rest : List Char} {c : Char}
    (h : literalPiece? text = some (c, rest)) : rest.length < text.length := by
  unfold literalPiece? at h
  cases hNewline : newline? text with
  | some next =>
      rw [hNewline] at h
      cases h
      exact length_of_newline? hNewline
  | none =>
      rw [hNewline] at h
      cases text with
      | nil => cases h
      | cons first tail =>
          dsimp only at h
          split at h
          · cases h
            exact Nat.lt_succ_self _
          · cases h

/-- A string without escapes on several lines, after its first quotes. -/
def multilineLiteral? (sofar text : List Char) : Option (String × List Char) :=
  match closing? '\'' text with
  | some (quotes, rest) => some (String.ofList (quotes ++ sofar).reverse, rest)
  | none =>
      match h : literalPiece? text with
      | some (c, rest) =>
          have := length_of_literalPiece? h
          multilineLiteral? (c :: sofar) rest
      | none => none
termination_by text.length

/-- A string on one line, if the text starts with a quote. -/
def lineString? : List Char → Option (String × List Char)
  | '"' :: rest => basic? [] rest
  | '\'' :: rest => literal? [] rest
  | _ => none

/-- A string of any kind. A line end right after three quotes does not count. -/
def string? : List Char → Option (String × List Char)
  | '"' :: '"' :: '"' :: rest => multilineBasic? false [] ((newline? rest).getD rest)
  | '\'' :: '\'' :: '\'' :: rest => multilineLiteral? [] ((newline? rest).getD rest)
  | text => lineString? text

end MoveModule.Toml
