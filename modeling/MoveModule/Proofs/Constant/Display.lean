import MoveModule.Proofs.Constant.Value
import MoveModule.Proofs.Text.Hex

/-! Shown values can be told apart. Bytes are shown as text or as numbers, depending on which bytes
they are, and their text may hold every character that separates or closes the items of a vector.
Quotes in it are escaped, so that a text ends where its quote is closed, and numbers end where a
separator follows. A row of shown items therefore falls into its items in one way only. -/
namespace MoveModule

namespace Text

/-- What may stand behind an item: nothing, or what separates or closes the items of a vector. -/
def Stops (behind : List Char) : Prop :=
  ∀ c ∈ behind.head?, c = ',' ∨ c = ']'

/-- Text falls in one way only into an admitted item and what may stand behind it. -/
def Delimited {α : Type} (spell : α → List Char) (admits : α → Prop) : Prop :=
  ∀ ⦃first second : α⦄ ⦃behind other : List Char⦄, admits first → admits second →
    Stops behind → Stops other → spell first ++ behind = spell second ++ other →
      first = second ∧ behind = other

theorem stops_nil : Stops [] := by
  simp [Stops]

theorem stops_comma (behind : List Char) : Stops (',' :: behind) := by
  simp [Stops]

theorem stops_close (behind : List Char) : Stops (']' :: behind) := by
  simp [Stops]

/-- The digits of a number end where something follows that is no digit. -/
theorem delimited_toDigits : Delimited (Nat.toDigits 10) fun _ => True := by
  have hDigits (n : Nat) {behind : List Char} (hStops : Stops behind) :
      (Nat.toDigits 10 n ++ behind).takeWhile Char.isDigit = Nat.toDigits 10 n := by
    have hNone : behind.takeWhile Char.isDigit = [] := by
      cases behind with
      | nil => rfl
      | cons c rest =>
          obtain rfl | rfl := hStops c rfl
          · rfl
          · rfl
    rw [List.takeWhile_append_of_pos fun c hc => Nat.isDigit_of_mem_toDigits (by decide)
      (by decide) hc, hNone, List.append_nil]
  intro first second behind other _ _ hBehind hOther h
  have hSame : Nat.toDigits 10 first = Nat.toDigits 10 second := by
    rw [← hDigits first hBehind, h, hDigits second hOther]
  refine ⟨?_, List.append_cancel_left (hSame ▸ h)⟩
  have hValue := congrArg (fun digits => Nat.ofDigitChars 10 digits 0) hSame
  simpa only [Nat.ofDigitChars_ten_toDigits] using hValue

/-- Digits in pairs end where as many bytes as expected are spelled. -/
theorem delimited_hex (count : Nat) :
    Delimited (fun bytes => (Hex.encode bytes).toList) fun bytes => bytes.length = count := by
  intro first second behind other hFirst hSecond _ _ h
  exact Hex.encode_append_inj (hFirst.trans hSecond.symm) h

/-- What is spelled through a part that determines it, behind a text of its own. -/
theorem Delimited.through {α β : Type} {spell : α → List Char} {admits : α → Prop}
    (h : Delimited spell admits) (front : List Char) (part : β → α) (hPart : ∀ b, admits (part b))
    (hDetermines : ∀ first second, part first = part second → first = second) :
    Delimited (fun b => front ++ spell (part b)) fun _ => True := by
  intro first second behind other _ _ hBehind hOther hText
  rw [List.append_assoc, List.append_assoc, List.append_cancel_left_eq] at hText
  obtain ⟨hSame, hRest⟩ := h (hPart first) (hPart second) hBehind hOther hText
  exact ⟨hDetermines first second hSame, hRest⟩

/-- What is spelled like the form that determines it. -/
theorem Delimited.embedded {α β : Type} {spell : α → List Char} {text : β → List Char}
    {admits : α → Prop} {allowed : β → Prop} (h : Delimited spell admits) (embed : α → β)
    (hForm : ∀ b, allowed b → ∃ a, admits a ∧ embed a = b)
    (hSpell : ∀ a, text (embed a) = spell a) : Delimited text allowed := by
  intro first second behind other hFirst hSecond hBehind hOther hText
  obtain ⟨left, hLeft, rfl⟩ := hForm first hFirst
  obtain ⟨right, hRight, rfl⟩ := hForm second hSecond
  rw [hSpell, hSpell] at hText
  obtain ⟨rfl, hRest⟩ := h hLeft hRight hBehind hOther hText
  exact ⟨rfl, hRest⟩

end Text

namespace ConstantValue

open Binary Text

/-- A byte as it stands in a shown text. -/
def escapedByte (byte : UInt8) : List Char :=
  let c := Char.ofNat byte.toNat
  if c == '"' || c == '\\' then ['\\', c] else [c]

/-- The items of a vector of bytes. -/
def byteItems (bytes : List UInt8) : List ConstantValue :=
  bytes.map fun byte => integer .w8 (BitVec.ofNat 8 byte.toNat)

/-- The items of a vector that follow another, as they are shown. -/
def laterText (items : List ConstantValue) : List Char :=
  items.flatMap fun item => ',' :: ' ' :: item.display.toList

/-- The items of a vector as they are shown one by one. -/
def itemsText : List ConstantValue → List Char
  | [] => []
  | first :: rest => first.display.toList ++ laterText rest

theorem toList_byteText (bytes : List UInt8) :
    (byteText bytes).toList = 'b' :: '"' :: (bytes.flatMap escapedByte ++ ['"']) := by
  have hFold (text : String) : (bytes.foldl (fun text byte =>
      let c := Char.ofNat byte.toNat
      if c == '"' || c == '\\' then (text.push '\\').push c else text.push c) text).toList =
        text.toList ++ bytes.flatMap escapedByte := by
    induction bytes generalizing text with
    | nil => simp
    | cons byte rest ih =>
        by_cases hEscaped : (Char.ofNat byte.toNat == '"' || Char.ofNat byte.toNat == '\\') = true
        · simp only [List.foldl_cons, ih, List.flatMap_cons, escapedByte, if_pos hEscaped]
          simp
        · simp only [List.foldl_cons, ih, List.flatMap_cons, escapedByte, if_neg hEscaped]
          simp
  rw [byteText, String.toList_append, hFold]
  simp

mutual

/-- A value is added to what is written as it is shown by itself. -/
theorem toList_append (written : String) (value : ConstantValue) :
    (append written value).toList = written.toList ++ value.display.toList := by
  cases value with
  | bool value => simp [display, append]
  | integer width value => simp [display, append]
  | address value => simp [display, append]
  | vector items =>
      cases items with
      | nil => simp [display, append]
      | cons first rest =>
          cases hBytes : (first :: rest).mapM shownByte? with
          | some bytes => simp [display, append, hBytes]
          | none =>
              have hItems (sofar : String) : (append sofar (vector (first :: rest))).toList =
                  sofar.toList ++ '[' :: (itemsText (first :: rest) ++ [']']) := by
                simp only [append, hBytes, String.toList_push, toList_appendItems _ rest,
                  toList_append _ first]
                simp [itemsText]
              rw [display, hItems, hItems]
              rfl

theorem toList_appendItems (written : String) (items : List ConstantValue) :
    (appendItems written items).toList = written.toList ++ laterText items := by
  cases items with
  | nil => simp [appendItems, laterText]
  | cons item rest =>
      rw [appendItems, toList_appendItems _ rest, toList_append _ item]
      simp [laterText]

end

/-- A vector is shown as text or item by item. -/
theorem display_vector (items : List ConstantValue) :
    (∃ bytes, items.mapM shownByte? = some bytes ∧
      (vector items).display.toList = 'b' :: '"' :: (bytes.flatMap escapedByte ++ ['"'])) ∨
      (vector items).display.toList = '[' :: (itemsText items ++ [']']) := by
  cases items with
  | nil => exact .inr rfl
  | cons first rest =>
      cases hBytes : (first :: rest).mapM shownByte? with
      | some bytes =>
          refine .inl ⟨bytes, rfl, ?_⟩
          simp [display, append, hBytes, toList_byteText]
      | none =>
          have hItems := toList_appendItems (append ("".push '[') first) rest
          rw [toList_append] at hItems
          rw [display, append, hBytes, String.toList_push, hItems]
          simp [itemsText]

theorem toNat_ofNat_byte (byte : UInt8) : (Char.ofNat byte.toNat).toNat = byte.toNat := by
  have hValid : byte.toNat.isValidChar := .inl (Nat.lt_trans byte.toNat_lt (by decide))
  rw [Char.ofNat, dif_pos hValid]
  rfl

/-- A byte in a text is told from the next and from the quote that closes the text. -/
theorem escapedByte_append_inj {first second : UInt8} {behind other : List Char}
    (h : escapedByte first ++ behind = escapedByte second ++ other) :
    first = second ∧ behind = other := by
  have hByte (hChar : Char.ofNat first.toNat = Char.ofNat second.toNat) : first = second := by
    refine UInt8.toNat_inj.mp ?_
    rw [← toNat_ofNat_byte first, hChar, toNat_ofNat_byte]
  simp only [escapedByte] at h
  split at h <;> split at h
  · obtain ⟨hChar, hRest⟩ : _ ∧ _ := by simpa using h
    exact ⟨hByte hChar, hRest⟩
  · grind
  · grind
  · obtain ⟨hChar, hRest⟩ : _ ∧ _ := by simpa using h
    exact ⟨hByte hChar, hRest⟩

theorem escapedByte_append_ne_quote (byte : UInt8) (behind other : List Char) :
    escapedByte byte ++ behind ≠ '"' :: other := by
  simp only [escapedByte]
  split <;> simp_all

/-- A text ends at the first quote that has no backslash of its own. -/
theorem escaped_quote_inj {first second : List UInt8} {behind other : List Char}
    (h : first.flatMap escapedByte ++ '"' :: behind = second.flatMap escapedByte ++ '"' :: other) :
    first = second ∧ behind = other := by
  induction first generalizing second with
  | nil =>
      cases second with
      | nil => simpa using h
      | cons byte rest =>
          rw [List.flatMap_cons, List.append_assoc] at h
          exact absurd h.symm (escapedByte_append_ne_quote _ _ _)
  | cons byte rest ih =>
      cases second with
      | nil =>
          rw [List.flatMap_cons, List.append_assoc] at h
          exact absurd h (escapedByte_append_ne_quote _ _ _)
      | cons next later =>
          rw [List.flatMap_cons, List.flatMap_cons, List.append_assoc, List.append_assoc] at h
          obtain ⟨rfl, hRest⟩ := escapedByte_append_inj h
          obtain ⟨rfl, hBehind⟩ := ih hRest
          exact ⟨rfl, hBehind⟩

/-- An item that can be shown as a character is the integer of its byte. -/
theorem eq_of_shownByte? {item : ConstantValue} {byte : UInt8} (h : item.shownByte? = some byte) :
    item = integer .w8 (BitVec.ofNat 8 byte.toNat) := by
  cases item with
  | integer width value =>
      cases width with
      | w8 =>
          simp only [shownByte?, Option.ite_none_right_eq_some, Option.some.injEq] at h
          obtain ⟨-, rfl⟩ := h
          have hLess : value.toNat < 256 := value.isLt
          have hByte : (UInt8.ofNat value.toNat).toNat = value.toNat := Nat.mod_eq_of_lt hLess
          rw [hByte]
          exact congrArg (integer .w8) (BitVec.eq_of_toNat_eq (Nat.mod_eq_of_lt hLess).symm)
      | _ => cases h
  | _ => cases h

/-- The items of a vector that is shown as text are those of its bytes. -/
theorem eq_byteItems_of_shown {items : List ConstantValue} {bytes : List UInt8}
    (h : items.mapM shownByte? = some bytes) : items = byteItems bytes := by
  induction items generalizing bytes with
  | nil =>
      obtain rfl : [] = bytes := by simpa using h
      rfl
  | cons item rest ih =>
      simp only [List.mapM_cons, Option.bind_eq_bind, Option.bind_eq_some_iff, Option.pure_def,
        Option.some.injEq] at h
      obtain ⟨byte, hByte, later, hLater, rfl⟩ := h
      rw [eq_of_shownByte? hByte, ih hLater]
      rfl

/-- Integers other than those of the widest kind are shown by their digits. -/
theorem toList_integerText {width : Width} (h : width ≠ .w256) (value : width.Value) :
    (integerText width value).toList = Nat.toDigits 10 value.toNat := by
  cases width with
  | w256 => exact absurd rfl h
  | _ => exact Nat.toList_repr

/-- A shown value is not empty and does not begin like the end of a vector. -/
theorem exists_display_eq_cons (value : ConstantValue) :
    ∃ c rest, value.display.toList = c :: rest ∧ c ≠ ']' := by
  cases value with
  | bool value => cases value <;> exact ⟨_, _, rfl, by decide⟩
  | address value => exact ⟨'0', _, by simp [display, append, Address.display]; rfl, by decide⟩
  | integer width value =>
      by_cases hWidth : width = .w256
      · subst hWidth
        exact ⟨'0', _, by simp [display, append, integerText]; rfl, by decide⟩
      · cases hDigits : Nat.toDigits 10 value.toNat with
        | nil => exact absurd hDigits Nat.toDigits_ne_nil
        | cons c rest =>
            refine ⟨c, rest, by simp [display, append, toList_integerText hWidth, hDigits], ?_⟩
            rintro rfl
            have hDigit : ']' ∈ Nat.toDigits 10 value.toNat := by simp [hDigits]
            exact absurd (Nat.isDigit_of_mem_toDigits (by decide) (by decide) hDigit) (by decide)
  | vector items =>
      obtain ⟨_, -, hText⟩ | hText := display_vector items
      · exact ⟨_, _, hText, by decide⟩
      · exact ⟨_, _, hText, by decide⟩

section Items

variable {admits : ConstantValue → Prop}
  (hItem : Delimited (fun item : ConstantValue => item.display.toList) admits)

theorem stops_laterText (items : List ConstantValue) (behind : List Char) :
    Stops (laterText items ++ ']' :: behind) := by
  cases items with
  | nil => exact stops_close behind
  | cons item rest => exact stops_comma _

include hItem

/-- The items that follow another are told from each other and from the end of the vector. -/
theorem laterText_close_inj {first second : List ConstantValue} {behind other : List Char}
    (hFirst : ∀ item ∈ first, admits item) (hSecond : ∀ item ∈ second, admits item)
    (h : laterText first ++ ']' :: behind = laterText second ++ ']' :: other) :
    first = second ∧ behind = other := by
  induction first generalizing second with
  | nil =>
      cases second with
      | nil => simpa [laterText] using h
      | cons item rest => simp [laterText] at h
  | cons item rest ih =>
      cases second with
      | nil => simp [laterText] at h
      | cons next later =>
          rw [List.forall_mem_cons] at hFirst hSecond
          have hText : item.display.toList ++ (laterText rest ++ ']' :: behind) =
              next.display.toList ++ (laterText later ++ ']' :: other) := by
            simpa [laterText] using h
          obtain ⟨rfl, hRest⟩ := hItem hFirst.1 hSecond.1 (stops_laterText rest behind)
            (stops_laterText later other) hText
          obtain ⟨rfl, hBehind⟩ := ih hFirst.2 hSecond.2 hRest
          exact ⟨rfl, hBehind⟩

/-- The items of a vector are told from each other and from its end. -/
theorem itemsText_close_inj {first second : List ConstantValue} {behind other : List Char}
    (hFirst : ∀ item ∈ first, admits item) (hSecond : ∀ item ∈ second, admits item)
    (h : itemsText first ++ ']' :: behind = itemsText second ++ ']' :: other) :
    first = second ∧ behind = other := by
  have hClose (item : ConstantValue) {rest later : List Char} :
      item.display.toList ++ rest ≠ ']' :: later := by
    obtain ⟨c, text, hText, hNot⟩ := exists_display_eq_cons item
    rw [hText, List.cons_append]
    exact fun hSame => hNot (List.cons.inj hSame).1
  cases first with
  | nil =>
      cases second with
      | nil => simpa [itemsText] using h
      | cons item rest =>
          rw [itemsText, itemsText, List.append_assoc] at h
          exact absurd h.symm (hClose item)
  | cons item rest =>
      cases second with
      | nil =>
          rw [itemsText, itemsText, List.append_assoc] at h
          exact absurd h (hClose item)
      | cons next later =>
          rw [List.forall_mem_cons] at hFirst hSecond
          rw [itemsText, itemsText, List.append_assoc, List.append_assoc] at h
          obtain ⟨rfl, hRest⟩ := hItem hFirst.1 hSecond.1 (stops_laterText rest behind)
            (stops_laterText later other) h
          obtain ⟨rfl, hBehind⟩ := laterText_close_inj hItem hFirst.2 hSecond.2 hRest
          exact ⟨rfl, hBehind⟩

end Items

/-- An integer of the widest kind ends after as many digits as each of them has, and any other
where its digits end. -/
theorem delimited_integerText (width : Width) :
    Delimited (fun value : width.Value => (integerText width value).toList) fun _ => True := by
  by_cases hWidth : width = .w256
  · subst hWidth
    have hDigits := (delimited_hex 32).through "0x".toList
      (fun value : Width.w256.Value => (LittleEndian.encode 32 value.toNat).reverse)
      (fun value => by simp)
      fun first second h => LittleEndian.encode_toNat_inj (List.reverse_inj.mp h)
    simpa only [integerText, String.toList_append] using hDigits
  · have hDigits := delimited_toDigits.through [] (fun value : width.Value => value.toNat)
      (fun _ => trivial) fun _ _ => BitVec.eq_of_toNat_eq
    simpa only [toList_integerText hWidth, List.nil_append] using hDigits

/-- A vector of one type of items is told from every other and from what stands behind it. -/
theorem delimited_vector {admits : ConstantValue → Prop}
    (hItem : Delimited (fun item : ConstantValue => item.display.toList) admits) :
    Delimited (fun items => (vector items).display.toList)
      fun items => ∀ item ∈ items, admits item := by
  intro first second behind other hFirst hSecond _ _ h
  obtain ⟨bytes, hBytes, hText⟩ | hText := display_vector first <;>
    obtain ⟨others, hOthers, hOtherText⟩ | hOtherText := display_vector second <;>
    simp only [hText, hOtherText] at h
  · have hQuoted : bytes.flatMap escapedByte ++ '"' :: behind =
        others.flatMap escapedByte ++ '"' :: other := by
      simpa using h
    obtain ⟨rfl, hRest⟩ := escaped_quote_inj hQuoted
    exact ⟨(eq_byteItems_of_shown hBytes).trans (eq_byteItems_of_shown hOthers).symm, hRest⟩
  · simp at h
  · simp at h
  · exact itemsText_close_inj hItem hFirst hSecond (by simpa using h)

/-- Text falls in one way only into a value of a type and what may stand behind it. -/
theorem delimited_display (type : ConstantType) :
    Delimited (fun value : ConstantValue => value.display.toList)
      fun value => hasType type value = true := by
  induction type with
  | bool =>
      have hFlag : Delimited (fun flag : Bool => (if flag then "true" else "false").toList)
          fun _ => True := by
        intro first second behind other _ _ _ _ h
        cases first <;> cases second <;> simp_all
      refine hFlag.embedded bool (fun value hType => ?_) fun flag => by simp [display, append]
      obtain ⟨flag, rfl⟩ := hasType_bool_iff.mp hType
      exact ⟨flag, trivial, rfl⟩
  | integer width =>
      refine (delimited_integerText width).embedded (integer width) (fun value hType => ?_)
        fun n => by simp [display, append]
      obtain ⟨n, rfl⟩ := hasType_integer_iff.mp hType
      exact ⟨n, trivial, rfl⟩
  | address =>
      have hDigits := (delimited_hex 32).through "0x".toList
        (fun address : Address => address.bytes.val) (fun address => address.bytes.property)
        fun first second h => congrArg Address.mk (Subtype.ext h)
      refine hDigits.embedded address (fun value hType => ?_)
        fun found => by simp [display, append, Address.display]
      obtain ⟨found, rfl⟩ := hasType_address_iff.mp hType
      exact ⟨found, trivial, rfl⟩
  | vector item ih =>
      exact (delimited_vector ih).embedded vector (fun _ => hasType_vector_iff.mp) fun _ => rfl

/-- Values of one type that are shown alike are the same value, and entries of one type whose
bytes are shown alike are the same entry. -/
theorem display_unambiguous (type : ConstantType) :
    (∀ first second, hasType type first = true → hasType type second = true →
      first.display = second.display → first = second) ∧
    ∀ first second : Constant, first.type = type → second.type = type →
      ∀ value other, first.decodeValue = .ok value → second.decodeValue = .ok other →
        value.display = other.display → first = second := by
  have hValues (first second : ConstantValue) (hFirst : hasType type first = true)
      (hSecond : hasType type second = true) (h : first.display = second.display) :
      first = second := by
    have hText : first.display.toList ++ [] = second.display.toList ++ [] := by rw [h]
    exact (delimited_display type hFirst hSecond stops_nil stops_nil hText).1
  refine ⟨hValues, ?_⟩
  intro first second hFirst hSecond value other hValue hOther h
  rw [Constant.decodeValue, hFirst, decode_eq_ok] at hValue
  rw [Constant.decodeValue, hSecond, decode_eq_ok] at hOther
  obtain ⟨⟨hValueType, -⟩, hValueBytes⟩ := hValue
  obtain ⟨⟨hOtherType, -⟩, hOtherBytes⟩ := hOther
  obtain rfl := hValues value other hValueType hOtherType h
  cases first
  cases second
  simp_all

/-- Two texts in a vector are not shown like the one text that holds their quotes and the comma
between them. -/
theorem display_unambiguous_quotes :
    let type := ConstantType.vector (.vector (.integer .w8))
    let two : Constant := ⟨type, [2, 1, 97, 1, 98]⟩
    let one : Constant := ⟨type, [1, 7, 97, 34, 44, 32, 98, 34, 98]⟩
    let values := vector [vector (byteItems [97]), vector (byteItems [98])]
    let value := vector [vector (byteItems [97, 34, 44, 32, 98, 34, 98])]
    (hasType type values = true ∧ hasType type value = true) ∧
      (two.decodeValue = .ok values ∧ one.decodeValue = .ok value) ∧
      values.display = "[b\"a\", b\"b\"]" ∧ value.display = "[b\"a\\\", b\\\"b\"]" ∧
      values.display ≠ value.display := by
  intro type two one values value
  have hTwo : two.decodeValue = .ok values := rfl
  have hOne : one.decodeValue = .ok value := rfl
  obtain ⟨-, hEntries⟩ := display_unambiguous type
  refine ⟨⟨rfl, rfl⟩, ⟨hTwo, hOne⟩, rfl, rfl, ?_⟩
  intro h
  exact absurd (hEntries two one rfl rfl values value hTwo hOne h) (by decide)

end ConstantValue

end MoveModule
