import MoveModule.Proofs.Binary.Gated

/-! Errors that are true of the input. A table is read from a part that was cut out of a longer
input, and an error found there names a place in the whole input. That the place is right, and that
what is said to stand there does, is kept by everything that readers are put together from. -/
namespace MoveModule.Binary

namespace DecodeError

/-- The place in the input that the error names. -/
def offset : DecodeError → Nat
  | unexpectedEnd offset | malformedUleb128 offset | nonCanonicalUleb128 offset
  | valueOutOfRange _ _ offset | invalidUtf8 offset | invalidIdentifier _ offset
  | invalidOpcode _ offset | invalidSignatureToken _ offset | signatureTooDeep _ offset
  | invalidTag _ _ offset | unsupportedInVersion _ _ offset => offset

/-- The byte that the error says stands at its place. -/
def byte? : DecodeError → Option UInt8
  | invalidOpcode byte _ | invalidSignatureToken byte _ | invalidTag _ byte _ => some byte
  | _ => none

/-- What the error says is so: its place is in the input, the byte stands there, or the number
does and is too large. -/
def TrueOf (input : List UInt8) : DecodeError → Prop
  | invalidOpcode byte offset | invalidSignatureToken byte offset | invalidTag _ byte offset =>
      input[offset]? = some byte
  | valueOutOfRange value max offset =>
      offset ≤ input.length ∧ max < value ∧ Uleb128.encode value <+: input.drop offset
  | error => error.offset ≤ input.length

variable {input : List UInt8} {error : DecodeError}

/-- Every true error names a place in the input or the end of it. -/
theorem TrueOf.offset_le (h : error.TrueOf input) : error.offset ≤ input.length := by
  cases error with
  | invalidOpcode | invalidSignatureToken | invalidTag =>
      exact Nat.le_of_lt (List.getElem?_eq_some_iff.mp h).1
  | valueOutOfRange => exact h.1
  | _ => exact h

/-- An error that names a byte names the one at its place, so that place lies before the end. -/
theorem TrueOf.getElem?_offset (h : error.TrueOf input) {byte : UInt8}
    (hByte : byte ∈ error.byte?) : input[error.offset]? = some byte := by
  cases error with
  | invalidOpcode | invalidSignatureToken | invalidTag =>
      obtain rfl := Option.some.inj hByte
      exact h
  | _ => cases hByte

end DecodeError

namespace Cursor

/-- The bytes of the cursor are a part of an input, and the base says where they stand in it. -/
structure PartOf (cursor : Cursor) (input : List UInt8) : Prop where
  bytes : cursor.bytes.toList <+: input.drop cursor.base
  base_le : cursor.base ≤ input.length
  position_le : cursor.position ≤ cursor.bytes.toList.length

namespace PartOf

variable {cursor : Cursor} {input bytes : List UInt8}

/-- The whole input is a part of itself, at its beginning. -/
theorem ofBytes (input : List UInt8) : (Cursor.ofBytes input).PartOf input where
  bytes := List.prefix_refl input
  base_le := Nat.zero_le _
  position_le := Nat.zero_le _

/-- Where the cursor stands is a place in the whole input, also if its bytes are a window of a
table. -/
theorem offset_le (h : cursor.PartOf input) : cursor.offset ≤ input.length := by
  have hBase := h.base_le
  have hPlace := h.position_le
  have hLength := h.bytes.length_le
  rw [List.length_drop] at hLength
  rw [offset]
  omega

/-- What stands before the cursor stands at its place in the input. -/
theorem rest_prefix (h : cursor.PartOf input) : cursor.rest <+: input.drop cursor.offset := by
  obtain ⟨behind, hInput⟩ := h.bytes
  rw [rest, offset, ← List.drop_drop, ← hInput, List.drop_append_of_le_length h.position_le]
  exact List.prefix_append _ _

/-- The next byte is the one that the whole input has at the place of the cursor. -/
theorem getElem?_offset (h : cursor.PartOf input) {byte : UInt8} (hByte : [byte] <+: cursor.rest) :
    input[cursor.offset]? = some byte := by
  obtain ⟨behind, hInput⟩ := hByte.trans h.rest_prefix
  rw [← List.head?_drop, ← hInput]
  rfl

/-- The cursor may go past bytes that are there. -/
theorem advance (h : cursor.PartOf input) (hBytes : bytes <+: cursor.rest) :
    (cursor.advance bytes.length).PartOf input where
  bytes := h.bytes
  base_le := h.base_le
  position_le := position_advance_le h.position_le hBytes

/-- A part of a part is a part of the whole, with the place that it has there. -/
theorem window (h : cursor.PartOf input) {start stop : Nat} (hStart : start ≤ stop)
    (hStop : stop ≤ cursor.bytes.size) : (cursor.window start stop).PartOf input where
  bytes := by
    obtain ⟨behind, hInput⟩ := h.bytes
    have hInside : start ≤ cursor.bytes.toList.length := by
      rw [Array.length_toList]
      exact Nat.le_trans hStart hStop
    simp only [Cursor.window, Array.toList_extract, List.extract_eq_take_drop]
    rw [← List.drop_drop, ← hInput, List.drop_append_of_le_length hInside]
    exact (List.take_prefix _ _).trans (List.prefix_append _ _)
  base_le := by
    have hBase := h.base_le
    have hLength := h.bytes.length_le
    rw [List.length_drop, Array.length_toList] at hLength
    simp only [Cursor.window]
    omega
  position_le := Nat.zero_le _

end PartOf

end Cursor

namespace Read

/-- From the cursor the read fails only with what is true, and goes on inside the input
otherwise. -/
structure TruthfulAt {ε α : Type} (truth : ε → Prop) (input : List UInt8) (cursor : Cursor)
    (read : ReadOr ε α) : Prop where
  error : ∀ {error next}, read cursor = .error error next → truth error
  ok : ∀ {value next}, read cursor = .ok value next → next.PartOf input

/-- The read fails only with what is true of the input, wherever in the input it starts. -/
def Truthful {α : Type} (read : Read α) : Prop :=
  ∀ ⦃input : List UInt8⦄ ⦃cursor : Cursor⦄, cursor.PartOf input →
    TruthfulAt (DecodeError.TrueOf input) input cursor read

section

variable {ε α β : Type} {truth : ε → Prop} {input : List UInt8} {cursor : Cursor}

/-- The first error of two reads in a row, with what had been read before it. -/
theorem bind_eq_error {first : ReadOr ε α} {second : α → ReadOr ε β} {error : ε} {next : Cursor} :
    (first >>= second) cursor = .error error next ↔ first cursor = .error error next ∨
      ∃ part middle, first cursor = .ok part middle ∧ second part middle = .error error next := by
  change EStateM.bind first second cursor = _ ↔ _
  rw [EStateM.bind]
  cases first cursor <;> simp [and_assoc]

namespace TruthfulAt

/-- A read that takes nothing stays at its place, and nothing can be wrong with it. -/
theorem pure (h : cursor.PartOf input) (value : α) :
    TruthfulAt truth input cursor (Pure.pure value : ReadOr ε α) where
  error hError := nomatch hError
  ok hOk := (pure_eq_ok.mp hOk).2 ▸ h

/-- An error may be given at once if it is true. -/
theorem throw {error : ε} (h : truth error) :
    TruthfulAt truth input cursor (MonadExcept.throw error : ReadOr ε α) where
  error hError := (EStateM.Result.error.inj hError).1 ▸ h
  ok hOk := nomatch hOk

/-- The second read starts where the first one stopped. -/
theorem bind {first : ReadOr ε α} {second : α → ReadOr ε β}
    (hFirst : TruthfulAt truth input cursor first)
    (hSecond : ∀ value next, first cursor = .ok value next → next.PartOf input →
      TruthfulAt truth input next (second value)) :
    TruthfulAt truth input cursor (first >>= second) where
  error hError := by
    rcases bind_eq_error.mp hError with hFault | ⟨value, middle, hValue, hFault⟩
    · exact hFirst.error hFault
    · exact (hSecond value middle hValue (hFirst.ok hValue)).error hFault
  ok hOk := by
    obtain ⟨value, middle, hValue, hRest⟩ := bind_eq_ok.mp hOk
    exact (hSecond value middle hValue (hFirst.ok hValue)).ok hRest

/-- A read that is given up under a condition. -/
theorem guard {condition : Prop} [Decidable condition] {error : ε} {rest : Unit → ReadOr ε α}
    (hError : condition → truth error)
    (hRest : ¬ condition → TruthfulAt truth input cursor (rest ())) :
    TruthfulAt truth input cursor
      (if condition then MonadExcept.throw error >>= rest else rest ()) := by
  split
  case isTrue h => exact bind (throw (hError h)) fun _ _ hOk => nomatch hOk
  case isFalse h => exact hRest h

/-- A look at the cursor moves nothing and cannot fail. -/
theorem get_bind {second : Cursor → ReadOr ε β}
    (h : TruthfulAt truth input cursor (second cursor)) :
    TruthfulAt truth input cursor (get >>= second) where
  error := h.error
  ok := h.ok

/-- A cursor that is moved by hand has to be a part of the input again. The rest of the read says
so. -/
theorem modify_bind {f : Cursor → Cursor} {second : PUnit → ReadOr ε β}
    (h : TruthfulAt truth input (f cursor) (second ⟨⟩)) :
    TruthfulAt truth input cursor (modify f >>= second) where
  error := h.error
  ok := h.ok

/-- A read that not all versions have. -/
theorem gate {allowed : Bool} {error : ε} {read : ReadOr ε α}
    (hRead : TruthfulAt truth input cursor read) (hError : truth error) :
    TruthfulAt truth input cursor (if allowed then read else MonadExcept.throw error) := by
  cases allowed with
  | true => exact hRead
  | false => exact throw hError

end TruthfulAt

end

section

variable {α β : Type} {input : List UInt8} {cursor : Cursor}

/-- The place that is asked for is one in the input. -/
theorem TruthfulAt.offset_bind {second : Nat → Read α} {truth : DecodeError → Prop}
    (h : TruthfulAt truth input cursor (second cursor.offset)) :
    TruthfulAt truth input cursor (offset >>= second) where
  error := h.error
  ok := h.ok

theorem truthful_remaining : Truthful remaining := by
  intro input cursor hCursor
  exact ⟨nofun, fun hOk => (remaining_eq_ok.mp hOk).2 ▸ hCursor⟩

/-- Only a missing byte is an error, for which the place is the end of the input. -/
theorem truthful_byte : Truthful byte := by
  intro input cursor hCursor
  constructor
  · intro error next h
    rw [byte] at h
    split at h
    · cases h
    · obtain ⟨rfl, -⟩ := EStateM.Result.error.inj h
      exact hCursor.offset_le
  · intro value next h
    obtain ⟨hByte, rfl⟩ := byte_eq_ok.mp h
    exact hCursor.advance hByte

/-- The byte at the place of the cursor, with what is done about it. -/
theorem TruthfulAt.byte_bind {second : UInt8 → Read α} (hCursor : cursor.PartOf input)
    (h : ∀ byte, input[cursor.offset]? = some byte → ∀ next : Cursor, next.PartOf input →
      TruthfulAt (DecodeError.TrueOf input) input next (second byte)) :
    TruthfulAt (DecodeError.TrueOf input) input cursor (byte >>= second) :=
  (truthful_byte hCursor).bind fun value next hValue hNext =>
    h value (hCursor.getElem?_offset (byte_eq_ok.mp hValue).1) next hNext

/-- A row of bytes that is not there to its end is refused for the place of its first byte. -/
theorem truthful_block (count : Nat) : Truthful (block count) := by
  intro input cursor hCursor
  constructor
  · intro error next h
    rw [block] at h
    split at h
    · cases h
    · obtain ⟨rfl, -⟩ := EStateM.Result.error.inj h
      exact hCursor.offset_le
  · intro value next h
    obtain ⟨hBytes, rfl⟩ := block_eq_ok.mp h
    exact value.property ▸ hCursor.advance hBytes

/-- The first read stops inside the input, which is all that the second one has to know. -/
theorem Truthful.bind {first : Read α} {second : α → Read β} (hFirst : first.Truthful)
    (hSecond : ∀ value, (second value).Truthful) : (first >>= second).Truthful :=
  fun _ _ hCursor => (hFirst hCursor).bind fun value _ _ hNext => hSecond value hNext

theorem truthful_pure (value : α) : Truthful (pure value) :=
  fun _ _ hCursor => .pure hCursor value

theorem truthful_take (count : Nat) : Truthful (take count) :=
  (truthful_block count).bind fun _ => truthful_pure _

/-- Words of fixed width can only be cut short. -/
theorem truthful_littleEndian (count : Nat) : Truthful (littleEndian count) :=
  (truthful_take count).bind fun _ => truthful_pure _

/-- The groups of a number are refused for the place of its first group. -/
theorem truthful_uleb128Groups {start groups : Nat} (hStart : start ≤ input.length)
    (hCursor : cursor.PartOf input) :
    TruthfulAt (DecodeError.TrueOf input) input cursor (uleb128Groups start groups) := by
  induction groups generalizing cursor with
  | zero => exact .throw hStart
  | succ groups ih =>
      refine .byte_bind hCursor fun group _ next hNext => .guard (fun _ => hStart) fun _ => ?_
      split
      · exact .guard (fun _ => hStart) fun _ => .pure hNext _
      · exact (ih hNext).bind fun high _ _ hLast => .pure hLast _

/-- Whatever is wrong with a number, the error names the place where the number begins. -/
theorem truthful_uleb128 : Truthful uleb128 :=
  fun _ _ hCursor => .offset_bind (truthful_uleb128Groups hCursor.offset_le hCursor)

/-- The number at the place of the cursor, with what is done about it. -/
theorem TruthfulAt.uleb128_bind {second : Nat → Read α} (hCursor : cursor.PartOf input)
    (h : ∀ value, Uleb128.encode value <+: input.drop cursor.offset →
      ∀ next : Cursor, next.PartOf input →
        TruthfulAt (DecodeError.TrueOf input) input next (second value)) :
    TruthfulAt (DecodeError.TrueOf input) input cursor (uleb128 >>= second) :=
  (truthful_uleb128 hCursor).bind fun value next hValue hNext =>
    h value ((uleb128_eq_ok.mp hValue).2.1.trans hCursor.rest_prefix) next hNext

/-- A number beyond its bound is named together with its place, and stands there in the form in
which it is written. -/
theorem truthful_bounded (max : Nat) : Truthful (bounded max) := by
  intro input cursor hCursor
  refine .offset_bind (.uleb128_bind hCursor fun value hValue next hNext => ?_)
  exact .guard (fun hLarge => ⟨hCursor.offset_le, hLarge, hValue⟩) fun _ => .pure hNext _

theorem truthful_index : Truthful index :=
  (truthful_bounded 65535).bind fun _ => truthful_pure _

/-- The bound of a count comes from the bytes that are left. So an error names the count as it
stands in the input, and a bound that it exceeds. -/
theorem truthful_count : Truthful count := by
  intro input cursor hCursor
  refine (truthful_remaining hCursor).bind fun remaining next hSame hNext => ?_
  refine .offset_bind (.uleb128_bind hNext fun value hValue last hLast => ?_)
  exact .guard (fun hLarge => ⟨hNext.offset_le, hLarge.1, hValue⟩) fun _ => .pure hLast _

/-- Bytes that are not all there are refused for the place of their length. -/
theorem truthful_byteString : Truthful byteString := by
  intro input cursor hCursor
  refine .offset_bind ((truthful_uleb128 hCursor).bind fun length next _ hNext => ?_)
  refine (truthful_remaining hNext).bind fun remaining last _ hLast => ?_
  exact .guard (fun _ => hCursor.offset_le) fun _ => truthful_take length hLast

/-- A text that is not UTF-8 is refused for the place of its length too, after all of its bytes have
been read. -/
theorem truthful_text : Truthful text := by
  intro input cursor hCursor
  refine .offset_bind ((truthful_byteString hCursor).bind fun bytes next _ hNext => ?_)
  cases Text.ofBytes? bytes with
  | none => exact .throw hCursor.offset_le
  | some text => exact .pure hNext text

/-- A byte that is no flag is named with its place. -/
theorem truthful_flag (what : String) : Truthful (flag what) := by
  intro input cursor hCursor
  refine .offset_bind (.byte_bind hCursor fun byte hByte next hNext => ?_)
  split
  · exact .pure hNext _
  · exact .pure hNext _
  · exact .throw hByte

/-- By induction on the number of items: each starts where the one before it stopped, which is in
the input. -/
theorem Truthful.times {read : Read α} (h : read.Truthful) (count : Nat) :
    (times count read).Truthful := by
  have hOnto (sofar : List α) : (timesOnto read count sofar).Truthful := by
    induction count generalizing sofar with
    | zero => exact truthful_pure sofar.reverse
    | succ count ih =>
        rw [timesOnto_succ]
        exact h.bind fun item => ih (item :: sofar)
  exact hOnto []

theorem Truthful.every {read : Read α} (h : read.Truthful) : (every read).Truthful := by
  have hOnto (limit : Nat) (sofar : Array α) : (everyOnto read limit sofar).Truthful := by
    induction limit generalizing sofar with
    | zero => exact truthful_pure sofar
    | succ limit ih =>
        intro input cursor hCursor
        have hMore := h.bind fun item => ih (sofar.push item)
        constructor
        · intro error next hError
          rw [everyOnto_succ] at hError
          split at hError
          · exact (hMore hCursor).error hError
          · cases hError
        · intro items next hOk
          rw [everyOnto_succ] at hOk
          split at hOk
          · exact (hMore hCursor).ok hOk
          · obtain ⟨-, rfl⟩ := EStateM.Result.ok.inj hOk
            exact hCursor
  intro input cursor hCursor
  exact ⟨(hOnto _ _ hCursor).error, (hOnto _ _ hCursor).ok⟩

end

end Read

namespace Codec

variable {α β : Type}

/-- In every version the reader of the codec fails only with what is true of the input. -/
def Truthful (codec : Codec α) : Prop :=
  ∀ version, (codec.read version).Truthful

namespace Truthful

variable {codec : Codec α}

theorem map (h : codec.Truthful) (into : α → β) (back : β → α) : (codec.map into back).Truthful :=
  fun version => (h version).bind fun _ => Read.truthful_pure _

/-- Writers say nothing about errors, so only the two readers matter. -/
theorem andThen (h : codec.Truthful) {second : α → Codec β}
    (hSecond : ∀ value, (second value).Truthful) : (codec.andThen second).Truthful :=
  fun version => (h version).bind fun value =>
    (hSecond value version).bind fun _ => Read.truthful_pure _

theorem pair (h : codec.Truthful) {second : Codec β} (hSecond : second.Truthful) :
    (codec.pair second).Truthful :=
  h.andThen fun _ => hSecond

/-- A part that is left out is not read, and nothing is said about it. -/
theorem when (h : codec.Truthful) (present : Bool) : (codec.when present).Truthful := by
  intro version
  cases present with
  | false => exact Read.truthful_pure _
  | true => exact (h version).bind fun _ => Read.truthful_pure _

/-- Either the count is refused or an item is, and both say what is true. -/
theorem list (h : codec.Truthful) : codec.list.Truthful :=
  fun version => Read.truthful_count.bind fun count => (h version).times count

end Truthful

theorem truthful_byte : byte.Truthful :=
  fun _ => Read.truthful_byte

theorem truthful_flag (what : String) : (flag what).Truthful :=
  fun _ => Read.truthful_flag what

/-- A byte that stands for nothing is named with its place, under the name of what was looked
for. -/
theorem truthful_tag (what : String) (encode : α → UInt8) (decode? : UInt8 → Option α) :
    (tag what encode decode?).Truthful := by
  intro version input cursor hCursor
  refine .offset_bind (.byte_bind hCursor fun byte hByte next hNext => ?_)
  split
  · exact .pure hNext _
  · exact .throw hByte

theorem truthful_block (count : Nat) : (block count).Truthful :=
  fun _ => Read.truthful_block count

theorem truthful_word (count : Nat) : (word count).Truthful :=
  fun _ => (Read.truthful_littleEndian count).bind fun _ => Read.truthful_pure _

theorem truthful_index : index.Truthful :=
  fun _ => Read.truthful_index

theorem truthful_uleb128 : uleb128.Truthful :=
  fun _ => Read.truthful_uleb128.bind fun _ => Read.truthful_pure _

theorem truthful_byteString : byteString.Truthful :=
  fun _ => Read.truthful_byteString

end Codec

end MoveModule.Binary
