import MoveModule.Json.Printer
import MoveModule.Json.Token

/-! The tokens of a printed document. They do not depend on the layout, since layouts
differ only in blanks. A number or a word ends only where another character follows it,
so what has been printed is followed through two notions: a text that ends in a finished
token or a blank, and one that may also end in a number or a word. -/
namespace MoveModule.Json

/-- Documents that denote something: all names and strings are texts, and all numbers are
natural numbers. -/
inductive Plain : Json → Prop
  | null : Plain .null
  | bool (value : Bool) : Plain (.bool value)
  | nat (value : Nat) : Plain (.nat value)
  | text (content : String) : Plain (text content)
  | array {items : List Json} (h : ∀ item ∈ items, Plain item) : Plain (.array items)
  | object {members : List (Option String × Json)} (hNames : ∀ member ∈ members, member.1.isSome)
      (hValues : ∀ member ∈ members, Plain member.2) : Plain (.object members)

mutual

/-- The tokens of a document. -/
def tokens : Json → List Token
  | .string text => [.string text]
  | .array [] => [.openArray, .closeArray]
  | .array (first :: rest) =>
      .openArray :: (tokens first ++ itemsTokens rest ++ [.closeArray])
  | .object [] => [.openObject, .closeObject]
  | .object ((name, first) :: rest) =>
      .openObject :: .string name :: .colon ::
        (tokens first ++ membersTokens rest ++ [.closeObject])
  | other => [.scalar other]

/-- The tokens of items that follow another. -/
def itemsTokens : List Json → List Token
  | [] => []
  | item :: rest => .comma :: (tokens item ++ itemsTokens rest)

/-- The tokens of members that follow another. -/
def membersTokens : List (Option String × Json) → List Token
  | [] => []
  | (name, value) :: rest =>
      .comma :: .string name :: .colon :: (tokens value ++ membersTokens rest)

end

/-- A lexer that has seen these tokens, from the last back, if the text does not go on with
the number or word at its end. -/
inductive Lexer.Ended : Lexer → List Token → Prop
  | between (seen : List Token) : Ended ⟨.between, seen⟩ seen
  | word {letters : List Char} {value : Json} (seen : List Token)
      (h : scalar? letters.reverse = some value) :
      Ended ⟨.word letters, seen⟩ (.scalar value :: seen)

/-- A text of whole tokens behind which any token may start. -/
def Opens (written : String) (seen : List Token) : Prop :=
  written.toList.foldlM Lexer.step Lexer.start = some ⟨.between, seen⟩

/-- A text of whole tokens. -/
def Spells (written : String) (seen : List Token) : Prop :=
  ∃ lexer, written.toList.foldlM Lexer.step Lexer.start = some lexer ∧ lexer.Ended seen

section Lexer

variable {written : String} {seen later : List Token}

theorem opens_empty : Opens "" [] := rfl

/-- Where any token may start, none is open. -/
theorem Opens.spells (h : Opens written seen) : Spells written seen :=
  ⟨_, h, .between seen⟩

/-- A text that spells tokens is split into these, from the first on. -/
theorem Spells.tokens?_eq (h : Spells written seen) :
    tokens? written.toList = some seen.reverse := by
  obtain ⟨lexer, hRun, hEnded⟩ := h
  rw [tokens?, hRun]
  cases hEnded with
  | between => rfl
  | word seen hValue => simp [Lexer.finish, hValue]

/-- A character that belongs to no word is taken as if nothing were open. -/
theorem Lexer.Ended.step_eq {lexer : Lexer} (h : lexer.Ended seen) {c : Char}
    (hc : isWordChar c = false) : lexer.step c = Lexer.enter seen c := by
  cases h with
  | between => rfl
  | word seen hValue => simp [Lexer.step, hc, hValue]

/-- A character that is a token by itself, behind a token that may have been open. It ends the open
token. -/
theorem Spells.push (h : Spells written seen) {c : Char} (hc : isWordChar c = false)
    (hEnter : Lexer.enter seen c = some ⟨.between, later⟩) : Opens (written.push c) later := by
  obtain ⟨lexer, hRun, hEnded⟩ := h
  rw [Opens, String.toList_push, List.foldlM_append, hRun]
  simp [hEnded.step_eq hc, hEnter]

theorem Opens.push (h : Opens written seen) {c : Char} (hc : isWordChar c = false)
    (hEnter : Lexer.enter seen c = some ⟨.between, later⟩) : Opens (written.push c) later :=
  h.spells.push hc hEnter

/-- A further text that leads from one finished token to another. -/
theorem Opens.append (h : Opens written seen) {text : String}
    (hText : text.toList.foldlM Lexer.step ⟨.between, seen⟩ = some ⟨.between, later⟩) :
    Opens (written ++ text) later := by
  rw [Opens, String.toList_append, List.foldlM_append, h]
  exact hText

/-- Blanks between tokens are passed over. -/
theorem run_blanks (count : Nat) (seen : List Token) :
    (List.replicate count ' ').foldlM Lexer.step ⟨.between, seen⟩ = some ⟨.between, seen⟩ := by
  induction count with
  | zero => rfl
  | succ count ih => exact ih

/-- A line break of the indented layout is a new line with two blanks for each level. -/
theorem toList_lineBreak (depth : Nat) :
    (Layout.indented.lineBreak depth).toList = '\n' :: List.replicate (2 * depth) ' ' := by
  simp [Layout.lineBreak]

/-- Line breaks leave no trace in the tokens, whichever the layout is. -/
theorem Opens.append_lineBreak (h : Opens written seen) (layout : Layout) (depth : Nat) :
    Opens (written ++ layout.lineBreak depth) seen := by
  cases layout with
  | compact => exact h.append rfl
  | indented =>
      refine h.append ?_
      rw [toList_lineBreak]
      exact run_blanks (2 * depth) seen

/-- A line may break behind a token. -/
theorem Spells.append_lineBreak (h : Spells written seen) (layout : Layout) (depth : Nat) :
    Spells (written ++ layout.lineBreak depth) seen := by
  cases layout with
  | compact => simpa [Layout.lineBreak] using h
  | indented =>
      obtain ⟨lexer, hRun, hEnded⟩ := h
      have hStep : lexer.step '\n' = some ⟨.between, seen⟩ := hEnded.step_eq (by decide)
      refine Opens.spells ?_
      rw [Opens, String.toList_append, List.foldlM_append, hRun, toList_lineBreak]
      simp only [Option.bind_eq_bind, Option.bind_some, List.foldlM_cons, hStep, run_blanks]

/-- A colon is followed by a blank in one of the layouts, which leaves no trace. -/
theorem Opens.append_colon (h : Opens written seen) (layout : Layout) :
    Opens (written ++ layout.colon) (.colon :: seen) := by
  cases layout with
  | compact => exact h.append rfl
  | indented => exact h.append rfl

end Lexer

section Strings

variable {seen : List Token}

/-- A digit below sixteen is read back from its character. -/
theorem hexDigit?_digitChar {digit : Nat} (h : digit < 16) :
    Text.hexDigit? digit.digitChar = some digit := by
  have hAll : ∀ digit < 16, Text.hexDigit? digit.digitChar = some digit := by decide
  exact hAll digit h

/-- An escape by number stands for the unit with these digits. -/
theorem run_unicode (units : List Nat) (high low : Nat) (hHigh : high < 16) (hLow : low < 16) :
    ['\\', 'u', '0', '0', high.digitChar, low.digitChar].foldlM Lexer.step
      ⟨.string units, seen⟩ = some ⟨.string ((16 * high + low) :: units), seen⟩ := by
  have hZero : Text.hexDigit? '0' = some 0 := rfl
  simp [Lexer.step, hZero, hexDigit?_digitChar hHigh, hexDigit?_digitChar hLow]

/-- One digit for the numbers below sixteen, which is why the escape has zeros in front. -/
theorem toList_hexadecimal_of_lt {n : Nat} (h : n < 16) :
    (Text.hexadecimal n).toList = [n.digitChar] := by
  rw [Text.hexadecimal, String.toList_ofList, Nat.toDigits_of_lt_base h]

/-- Two digits for the rest of the numbers that escapes need. -/
theorem toList_hexadecimal_of_le {n : Nat} (h : 16 ≤ n) (hSmall : n < 256) :
    (Text.hexadecimal n).toList = [(n / 16).digitChar, (n % 16).digitChar] := by
  rw [Text.hexadecimal, String.toList_ofList, Nat.toDigits_of_base_le (by decide) h,
    Nat.toDigits_of_lt_base (by omega)]
  rfl

/-- What is written for a character is read as its code unit. -/
theorem run_escaped (units : List Nat) (c : Char) :
    (escaped c).toList.foldlM Lexer.step ⟨.string units, seen⟩ =
      some ⟨.string (c.toNat :: units), seen⟩ := by
  fun_cases escaped c with
  | case1 h | case2 _ h | case3 _ _ h | case4 _ _ _ h | case5 _ _ _ _ h | case6 _ _ _ _ _ h
  | case7 _ _ _ _ _ _ h =>
      obtain rfl := eq_of_beq h
      rfl
  | case8 _ _ _ _ _ _ _ hSmall =>
      have hDigit : c.toNat < 16 := hSmall
      have hRun := @run_unicode seen units 0 c.toNat (by decide) hDigit
      rw [Nat.mul_zero, Nat.zero_add] at hRun
      rw [String.toList_append, toList_hexadecimal_of_lt hDigit]
      exact hRun
  | case9 _ _ _ _ _ _ _ hLarge hSmall =>
      have hControl : c.toNat < 32 := hSmall
      have hDigits : 16 ≤ c.toNat := Nat.le_of_not_lt hLarge
      have hRun := @run_unicode seen units (c.toNat / 16) (c.toNat % 16) (by omega) (by omega)
      rw [Nat.div_add_mod] at hRun
      rw [String.toList_append, toList_hexadecimal_of_le hDigits (by omega)]
      exact hRun
  | case10 hQuote hBackslash _ _ _ _ _ _ hControl =>
      simp [Lexer.step, hQuote, hBackslash, hControl]

/-- The number of a character is no half of a pair, so the units of a printed text are never
joined. -/
theorem not_isSurrogate_toNat (c : Char) :
    isHighSurrogate c.toNat = false ∧ isLowSurrogate c.toNat = false := by
  have hValid : c.toNat < 0xD800 ∨ 0xDFFF < c.toNat ∧ c.toNat < 0x110000 := c.valid
  simp only [isHighSurrogate, isLowSurrogate, Bool.and_eq_false_iff, decide_eq_false_iff_not]
  omega

/-- The code units of characters spell these characters, none of which is half of a pair. -/
theorem joinUnits_map_toNat (sofar characters : List Char) :
    joinUnits sofar (characters.map Char.toNat) =
      some (String.ofList (sofar.reverse ++ characters)) := by
  induction characters generalizing sofar with
  | nil => simp [joinUnits]
  | cons c rest ih =>
      obtain ⟨hHigh, hLow⟩ := not_isSurrogate_toNat c
      cases rest with
      | nil => simp [joinUnits, hHigh, hLow]
      | cons next rest =>
          have hRest := ih (c :: sofar)
          simp only [List.map_cons] at hRest ⊢
          simp [joinUnits, hHigh, hLow, hRest]

/-- The characters of a text, one after the other. Their numbers are collected from the last
back. -/
theorem run_escapedAll (units : List Nat) (characters : List Char) :
    (characters.flatMap fun c => (escaped c).toList).foldlM Lexer.step ⟨.string units, seen⟩ =
      some ⟨.string ((characters.map Char.toNat).reverse ++ units), seen⟩ := by
  induction characters generalizing units with
  | nil => rfl
  | cons c rest ih =>
      rw [List.flatMap_cons, List.foldlM_append, run_escaped]
      simp [ih]

/-- A printed text stands between quotes, with each character escaped by itself. -/
theorem toList_appendString (written text : String) :
    (appendString written (some text)).toList =
      written.toList ++ ('"' :: (text.toList.flatMap (fun c => (escaped c).toList) ++ ['"'])) := by
  have hFold (characters : List Char) (sofar : String) :
      (characters.foldl (fun sofar c => sofar ++ escaped c) sofar).toList =
        sofar.toList ++ characters.flatMap fun c => (escaped c).toList := by
    induction characters generalizing sofar with
    | nil => simp
    | cons c rest ih => simp [ih]
  simp [appendString, hFold]

/-- A printed text is one token, and its characters come back as they were. -/
theorem Opens.appendString {written : String} (h : Opens written seen) (text : String) :
    Opens (appendString written (some text)) (.string (some text) :: seen) := by
  have hUnits : joinUnits [] (text.toList.map Char.toNat) = some text := by
    rw [joinUnits_map_toNat, List.reverse_nil, List.nil_append, String.ofList_toList]
  have hOpened : Lexer.step ⟨.between, seen⟩ '"' = some ⟨.string [], seen⟩ := rfl
  rw [Opens, toList_appendString, List.foldlM_append, h]
  simp only [Option.bind_eq_bind, Option.bind_some, List.foldlM_cons, hOpened,
    List.foldlM_append, run_escapedAll, List.append_nil]
  simp [Lexer.step, hUnits]

end Strings

section Scalars

variable {written : String} {seen : List Token}

/-- A positive number in decimal has no zero in front. -/
theorem head?_toDigits_ne_zero {n : Nat} (h : 0 < n) : (Nat.toDigits 10 n).head? ≠ some '0' := by
  induction n using Nat.strongRecOn with
  | ind n ih =>
      by_cases hSmall : n < 10
      · rw [Nat.toDigits_of_lt_base hSmall, List.head?_cons, ne_eq, Option.some.injEq,
          Nat.digitChar_eq_zero]
        omega
      · have hFront := ih (n / 10) (by omega) (by omega)
        rw [Nat.toDigits_of_base_le (by decide) (by omega)]
        rwa [List.head?_append, List.head?_eq_some_head Nat.toDigits_ne_nil, Option.some_or,
          ← List.head?_eq_some_head]

/-- Digits that do not begin with a zero are a number. -/
theorem isNumber_of_isDigit {letters : List Char} (hHead : letters.head? ≠ some '0')
    (hNil : letters ≠ []) (hDigits : ∀ c ∈ letters, c.isDigit = true) :
    isNumber letters = true := by
  obtain ⟨first, rest, rfl⟩ := List.exists_cons_of_ne_nil hNil
  obtain ⟨hFirst, hRest⟩ := List.forall_mem_cons.mp hDigits
  have hZero : first ≠ '0' := fun h => hHead (h ▸ rfl)
  have hMinus : first ≠ '-' := by
    rintro rfl
    exact absurd hFirst (by decide)
  have hAll : rest.dropWhile Char.isDigit = [] := by
    simpa using @List.dropWhile_append_of_pos _ Char.isDigit rest [] hRest
  simp [isNumber, dropWhole?, dropDigits?, dropFraction?, dropExponent?, hMinus, hZero, hFirst,
    hAll]

/-- The decimal digits of a number have the number as their value. -/
theorem natOfDigits_toDigits (n : Nat) : natOfDigits (Nat.toDigits 10 n) = n := by
  have h := @Nat.ofDigitChars_ten_toDigits n
  rw [Nat.ofDigitChars_eq_foldl] at h
  exact h

/-- The digits of a number denote it. Zero is the one number whose digits begin with a zero. -/
theorem scalar?_toDigits (n : Nat) : scalar? (Nat.toDigits 10 n) = some (.nat n) := by
  by_cases hZero : n = 0
  · subst hZero
    rfl
  · have hDigits : ∀ c ∈ Nat.toDigits 10 n, c.isDigit = true :=
      fun c hc => Nat.isDigit_of_mem_toDigits (by decide) (by decide) hc
    have hWord {first : Char} {rest : List Char} (hFirst : first.isDigit = false) :
        Nat.toDigits 10 n ≠ first :: rest := by
      intro h
      have hDigit := hDigits first (h ▸ List.mem_cons_self)
      rw [hFirst] at hDigit
      exact Bool.noConfusion hDigit
    have hNumber := isNumber_of_isDigit (head?_toDigits_ne_zero (Nat.pos_of_ne_zero hZero))
      Nat.toDigits_ne_nil hDigits
    rw [scalar?, if_neg (hWord (by decide)), if_neg (hWord (by decide)),
      if_neg (hWord (by decide)), if_pos hNumber, if_pos (List.all_eq_true.mpr hDigits),
      natOfDigits_toDigits]

theorem enter_of_isWordChar {c : Char} (h : isWordChar c = true) :
    Lexer.enter seen c = some ⟨.word [c], seen⟩ := by
  unfold Lexer.enter
  split
  all_goals first
    | exact absurd h (by decide)
    | simp [h]

/-- Letters and digits are collected as one word. -/
theorem run_word {letters : List Char} (word : List Char) (h : ∀ c ∈ word, isWordChar c = true) :
    word.foldlM Lexer.step ⟨.word letters, seen⟩ =
      some ⟨.word (word.reverse ++ letters), seen⟩ := by
  induction word generalizing letters with
  | nil => rfl
  | cons c rest ih =>
      obtain ⟨hFirst, hRest⟩ := List.forall_mem_cons.mp h
      simp [Lexer.step, hFirst, ih hRest]

/-- A word or number is a token that is still open at the end of the text. Something that belongs to
no word has to follow. -/
theorem Opens.append_word (h : Opens written seen) {first : Char} {rest : List Char} {value : Json}
    (hWord : ∀ c ∈ first :: rest, isWordChar c = true)
    (hValue : scalar? (first :: rest) = some value) :
    Spells (written ++ String.ofList (first :: rest)) (.scalar value :: seen) := by
  obtain ⟨hFirst, hRest⟩ := List.forall_mem_cons.mp hWord
  have hStep : Lexer.step ⟨.between, seen⟩ first = some ⟨.word [first], seen⟩ :=
    enter_of_isWordChar hFirst
  refine ⟨⟨.word (rest.reverse ++ [first]), seen⟩, ?_, .word seen ?_⟩
  · rw [String.toList_append, String.toList_ofList, List.foldlM_append, h]
    simp only [Option.bind_eq_bind, Option.bind_some, List.foldlM_cons, hStep, run_word rest hRest]
  · simpa using hValue

end Scalars

section Documents

variable {written : String} {seen : List Token} {layout : Layout}

/-- However a document is printed, its tokens are added to those in front of it. -/
def Printed (layout : Layout) (document : Json) : Prop :=
  ∀ (depth : Nat) {written : String} {seen : List Token}, Opens written seen →
    Spells (append layout depth written document) (document.tokens.reverse ++ seen)

/-- The items of an array behind its first one. By induction, each with the comma in front of it. -/
theorem spells_appendItems (depth : Nat) {items : List Json}
    (hItems : ∀ item ∈ items, Printed layout item) (h : Spells written seen) :
    Spells (appendItems layout depth written items) ((itemsTokens items).reverse ++ seen) := by
  induction items generalizing written seen with
  | nil => exact h
  | cons item rest ih =>
      obtain ⟨hItem, hRest⟩ := List.forall_mem_cons.mp hItems
      have hComma : Opens (written.push ',') (.comma :: seen) := h.push (by decide) rfl
      have hAll := ih hRest (hItem depth (hComma.append_lineBreak layout depth))
      simpa [appendItems, itemsTokens] using hAll

/-- The members of an object behind its first one, each with a comma, its name and a colon in
front. -/
theorem spells_appendMembers (depth : Nat) {members : List (Option String × Json)}
    (hNames : ∀ member ∈ members, member.1.isSome)
    (hValues : ∀ member ∈ members, Printed layout member.2) (h : Spells written seen) :
    Spells (appendMembers layout depth written members)
      ((membersTokens members).reverse ++ seen) := by
  induction members generalizing written seen with
  | nil => exact h
  | cons member rest ih =>
      obtain ⟨_ | name, value⟩ := member
      · exact absurd (hNames _ List.mem_cons_self) (by simp)
      · obtain ⟨hValue, hRest⟩ := List.forall_mem_cons.mp hValues
        have hComma : Opens (written.push ',') (.comma :: seen) := h.push (by decide) rfl
        have hName := (hComma.append_lineBreak layout depth).appendString name
        have hAll := ih (List.forall_mem_cons.mp hNames).2 hRest
          (hValue depth (hName.append_colon layout))
        simpa [appendMembers, membersTokens] using hAll

/-- By induction on the document. An empty array or object is printed without a line break, and is a
case of its own for this reason. -/
theorem Plain.printed {document : Json} (hPlain : document.Plain) : Printed layout document := by
  induction hPlain with
  | null => exact fun _ _ _ h => h.append_word (List.all_eq_true.mp rfl) rfl
  | bool value =>
      intro depth written seen h
      cases value with
      | true => exact h.append_word (List.all_eq_true.mp rfl) rfl
      | false => exact h.append_word (List.all_eq_true.mp rfl) rfl
  | nat value =>
      intro depth written seen h
      obtain ⟨first, rest, hDigits⟩ :=
        List.exists_cons_of_ne_nil (@Nat.toDigits_ne_nil value 10)
      have hWord : ∀ c ∈ first :: rest, isWordChar c = true := by
        intro c hc
        have hDigit := Nat.isDigit_of_mem_toDigits (by decide) (by decide) (hDigits ▸ hc)
        simp [isWordChar, Char.isAlphanum, hDigit]
      rw [append, Nat.toString_eq_ofList_toDigits, hDigits]
      exact h.append_word hWord (hDigits ▸ scalar?_toDigits value)
  | text content => exact fun _ _ _ h => (h.appendString content).spells
  | @array items _ ih =>
      intro depth written seen h
      cases items with
      | nil => exact (h.append rfl).spells
      | cons first rest =>
          obtain ⟨hFirst, hRest⟩ := List.forall_mem_cons.mp ih
          have hOpened : Opens (written.push '[') (.openArray :: seen) := h.push (by decide) rfl
          have hItems := spells_appendItems (depth + 1) hRest
            (hFirst (depth + 1) (hOpened.append_lineBreak layout (depth + 1)))
          have hClosed : Opens _ (.closeArray :: _) :=
            @Spells.push _ _ _ (hItems.append_lineBreak layout depth) ']' (by decide) rfl
          simpa [append, tokens] using hClosed.spells
  | @object members hNames _ ih =>
      intro depth written seen h
      rcases members with _ | ⟨⟨_ | name, first⟩, rest⟩
      · exact (h.append rfl).spells
      · exact absurd (hNames _ List.mem_cons_self) (by simp)
      · obtain ⟨hFirst, hRest⟩ := List.forall_mem_cons.mp ih
        have hOpened : Opens (written.push '\x7b') (.openObject :: seen) := h.push (by decide) rfl
        have hName := (hOpened.append_lineBreak layout (depth + 1)).appendString name
        have hMembers := spells_appendMembers (depth + 1)
          (List.forall_mem_cons.mp hNames).2 hRest
          (hFirst (depth + 1) (hName.append_colon layout))
        have hClosed : Opens _ (.closeObject :: _) :=
          @Spells.push _ _ _ (hMembers.append_lineBreak layout depth) '\x7d' (by decide) rfl
        simpa [append, tokens] using hClosed.spells

/-- A printed document has its tokens in either layout. -/
theorem Plain.spells_render {document : Json} (hPlain : document.Plain) (layout : Layout) :
    Spells (render layout document) document.tokens.reverse := by
  simpa [render] using hPlain.printed 0 opens_empty

end Documents

section Depth

/-- How many arrays and objects are open behind a token. -/
def openAfter (count : Nat) : Token → Nat
  | .openArray | .openObject => count + 1
  | .closeArray | .closeObject => count - 1
  | _ => count

/-- The most arrays and objects that are open at once in a row of tokens, with `count` of them
open in front of it. -/
def mostOpen (count : Nat) : List Token → Nat
  | [] => count
  | token :: rest => max count (mostOpen (openAfter count token) rest)

/-- How deep arrays and objects are nested in a text, if it consists of tokens. -/
def textNesting? (text : String) : Option Nat :=
  (tokens? text.toList).map (mostOpen 0)

/-- What is open at first counts too. -/
theorem le_mostOpen (count : Nat) (later : List Token) : count ≤ mostOpen count later := by
  cases later with
  | nil => exact Nat.le_refl count
  | cons => exact Nat.le_max_left _ _

/-- Behind a document as many arrays and objects are open as in front of it. -/
def Nested (document : Json) : Prop :=
  ∀ (count : Nat) (later : List Token),
    mostOpen count (document.tokens ++ later) =
      max (count + document.nesting) (mostOpen count later)

/-- Items beside each other are nested as deep as the deepest of them. -/
theorem mostOpen_itemsTokens {items : List Json} (hItems : ∀ item ∈ items, Nested item)
    (count : Nat) (later : List Token) :
    mostOpen count (itemsTokens items ++ later) =
      max (count + itemsNesting items) (mostOpen count later) := by
  have hCount := le_mostOpen count later
  induction items with
  | nil => simp only [itemsTokens, itemsNesting, List.nil_append]; omega
  | cons item rest ih =>
      obtain ⟨hItem, hRest⟩ := List.forall_mem_cons.mp hItems
      simp only [itemsTokens, List.cons_append, List.append_assoc, mostOpen, openAfter, hItem _,
        ih hRest, itemsNesting]
      omega

/-- Members beside each other are nested as deep as the deepest of their values. Names and colons
open nothing. -/
theorem mostOpen_membersTokens {members : List (Option String × Json)}
    (hValues : ∀ member ∈ members, Nested member.2) (count : Nat) (later : List Token) :
    mostOpen count (membersTokens members ++ later) =
      max (count + membersNesting members) (mostOpen count later) := by
  have hCount := le_mostOpen count later
  induction members with
  | nil => simp only [membersTokens, membersNesting, List.nil_append]; omega
  | cons member rest ih =>
      obtain ⟨name, value⟩ := member
      obtain ⟨hValue, hRest⟩ := List.forall_mem_cons.mp hValues
      simp only [membersTokens, List.cons_append, List.append_assoc, mostOpen, openAfter,
        hValue _, ih hRest, membersNesting]
      omega

/-- By induction on the document: a bracket is open for all that stands in it, and closed
behind it. -/
theorem Plain.nested {document : Json} (hPlain : document.Plain) : Nested document := by
  induction hPlain with
  | null | bool | nat | text =>
      intro count later
      simp [tokens, mostOpen, openAfter, nesting, Json.text]
  | @array items _ ih =>
      intro count later
      have hCount := le_mostOpen count later
      cases items with
      | nil =>
          simp only [tokens, List.cons_append, List.nil_append, mostOpen, openAfter, nesting,
            itemsNesting, Nat.add_sub_cancel]
          omega
      | cons first rest =>
          obtain ⟨hFirst, hRest⟩ := List.forall_mem_cons.mp ih
          simp only [tokens, List.cons_append, List.append_assoc, List.nil_append, mostOpen,
            openAfter, hFirst _, mostOpen_itemsTokens hRest, nesting, itemsNesting,
            Nat.add_sub_cancel]
          omega
  | @object members _ _ ih =>
      intro count later
      have hCount := le_mostOpen count later
      rcases members with _ | ⟨⟨name, first⟩, rest⟩
      · simp only [tokens, List.cons_append, List.nil_append, mostOpen, openAfter, nesting,
          membersNesting, Nat.add_sub_cancel]
        omega
      · obtain ⟨hFirst, hRest⟩ := List.forall_mem_cons.mp ih
        simp only [tokens, List.cons_append, List.append_assoc, List.nil_append, mostOpen,
          openAfter, hFirst _, mostOpen_membersTokens hRest, nesting, membersNesting,
          Nat.add_sub_cancel]
        omega

/-- The nesting of a text is that of the document whose tokens it consists of. -/
theorem Plain.textNesting?_eq {document : Json} (hPlain : document.Plain) {text : String}
    (hText : Spells text document.tokens.reverse) :
    textNesting? text = some document.nesting := by
  have hNested := hPlain.nested 0 []
  simp only [List.append_nil, mostOpen, Nat.zero_add, Nat.max_zero] at hNested
  rw [textNesting?, hText.tokens?_eq, List.reverse_reverse, Option.map_some, hNested]

end Depth

end MoveModule.Json
