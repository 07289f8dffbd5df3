import MoveModule.Proofs.Module.Tables
import MoveModule.Proofs.Table.Truthful

/-! What is said about a file that is refused is true. Errors that are found inside a table name
places in the whole file. The only number that is no place in it is one that the file gives itself:
where its directory says that a table starts. -/
namespace MoveModule

open Binary

namespace ModuleError

/-- The offset that the error carries. -/
def offset? : ModuleError → Option Nat
  | .decode source => some source.offset
  | .unknownTableKind _ offset | .nonContiguousTable _ _ offset | .tableOutOfBounds _ offset _
  | .trailingBytes offset => some offset
  | .invalidMagic _ | .unsupportedVersion _ | .duplicateTable _ => none

/-- The byte that the error says stands at its offset. -/
def byte? : ModuleError → Option UInt8
  | .decode source => source.byte?
  | .unknownTableKind byte _ => some byte
  | _ => none

/-- What the error says is so. A table that does not start where it should is one that the
directory of the input has at this offset. -/
def TrueOf (input : List UInt8) : ModuleError → Prop
  | .decode source => source.TrueOf input
  | .unknownTableKind byte offset => input[offset]? = some byte
  | .nonContiguousTable kind expected offset =>
      offset ≠ expected ∧ ∃ place length, (Extent.mk kind offset length).write <+: input.drop place
  | .tableOutOfBounds _ offset _ | .trailingBytes offset => offset ≤ input.length
  | .invalidMagic _ | .unsupportedVersion _ | .duplicateTable _ => True

end ModuleError

namespace Module

open Read (TruthfulAt)

section

variable {α : Type} {input : List UInt8} {cursor : Cursor}

theorem truthfulAt_readPart {read : Read α}
    (h : TruthfulAt (DecodeError.TrueOf input) input cursor read) :
    TruthfulAt (ModuleError.TrueOf input) input cursor (readPart read) where
  error hError := by
    rw [readPart, Read.mapError] at hError
    cases hSource : read cursor with
    | ok value middle =>
        rw [hSource] at hError
        cases hError
    | error source stop =>
        rw [hSource] at hError
        obtain ⟨rfl, -⟩ := EStateM.Result.error.inj hError
        exact h.error hSource
  ok hOk := h.ok (readPart_eq_ok.mp hOk)

theorem truthfulAt_readHeader (hCursor : cursor.PartOf input) :
    TruthfulAt (ModuleError.TrueOf input) input cursor readHeader := by
  refine (truthfulAt_readPart (Read.truthful_block 4 hCursor)).bind fun magic next _ hNext => ?_
  refine .guard (fun _ => trivial) fun _ => ?_
  refine (truthfulAt_readPart (Read.truthful_littleEndian 4 hNext)).bind fun n last _ hLast => ?_
  exact .guard (fun _ => trivial) fun _ => .pure hLast _

/-- An entry of the directory is refused for its byte, for its numbers, or because it says that the
table starts elsewhere. -/
theorem truthfulAt_readExtents {count expected : Nat} {sofar : List Extent}
    (hCursor : cursor.PartOf input) :
    TruthfulAt (ModuleError.TrueOf input) input cursor (readExtents count expected sofar) := by
  induction count generalizing cursor expected sofar with
  | zero => exact .pure hCursor _
  | succ count ih =>
      refine (truthfulAt_readPart (.offset_bind (.pure hCursor _))).bind fun start _ hStart _ => ?_
      obtain ⟨rfl, rfl⟩ := Read.offset_eq_ok.mp (readPart_eq_ok.mp hStart)
      refine (truthfulAt_readPart (Read.truthful_byte hCursor)).bind fun byte _ hByte hNext => ?_
      obtain ⟨hFirst, rfl⟩ := Read.byte_eq_ok.mp (readPart_eq_ok.mp hByte)
      cases hKind : TableKind.ofByte? byte with
      | none => exact .throw (hCursor.getElem?_offset hFirst)
      | some kind =>
          have hBounded := Read.truthful_bounded 0xFFFFFFFF
          refine .guard (fun _ => trivial) fun _ => ?_
          refine (truthfulAt_readPart (hBounded hNext)).bind fun offset _ hOffset hMiddle => ?_
          refine (truthfulAt_readPart (hBounded hMiddle)).bind fun length _ hLength hLast => ?_
          refine .guard (fun hOther => ⟨hOther, cursor.offset, length, ?_⟩) fun _ => ih hLast
          obtain ⟨-, -, hSecond, rfl⟩ := Read.bounded_eq_ok.mp (readPart_eq_ok.mp hOffset)
          obtain ⟨-, -, hThird, rfl⟩ := Read.bounded_eq_ok.mp (readPart_eq_ok.mp hLength)
          rw [Cursor.advance_advance] at hThird
          obtain rfl := TableKind.byte_of_ofByte? hKind
          exact (Extent.write_prefix_iff.mpr ⟨hFirst, hSecond, hThird⟩).trans hCursor.rest_prefix

theorem truthfulAt_readDirectory (hCursor : cursor.PartOf input) :
    TruthfulAt (ModuleError.TrueOf input) input cursor readDirectory :=
  (truthfulAt_readPart (Read.truthful_count hCursor)).bind fun _ _ _ hNext =>
    truthfulAt_readExtents hNext

/-- A table that is not all there starts inside the file if all before it were there. -/
theorem truthfulAt_readTable {contents : Nat} {module : Module} {extent : Extent}
    (hCursor : cursor.PartOf input) (hStart : contents + extent.offset ≤ cursor.bytes.size) :
    TruthfulAt (ModuleError.TrueOf input) input cursor (readTable contents module extent) where
  error hError := by
    by_cases hInside : cursor.bytes.size < contents + extent.offset + extent.length
    · rw [readTable] at hError
      simp only [if_pos hInside] at hError
      obtain ⟨rfl, -⟩ := EStateM.Result.error.inj hError
      have hSize := hCursor.bytes.length_le
      rw [Array.length_toList, List.length_drop] at hSize
      change extent.offset ≤ input.length
      omega
    · have hWindow := hCursor.window (Nat.le_add_right _ extent.length) (Nat.le_of_not_lt hInside)
      have hEvery := (extent.kind.truthful_entryCodec module.version).every hWindow
      cases hRead : Read.every (extent.kind.entryCodec.read module.version) (cursor.window
          (contents + extent.offset) (contents + extent.offset + extent.length)) with
      | error source stop =>
          rw [readTable_of_every_eq_error hInside hRead] at hError
          obtain ⟨rfl, -⟩ := EStateM.Result.error.inj hError
          exact hEvery.error hRead
      | ok entries stop =>
          rw [readTable_eq_ok_iff_every.mpr ⟨hInside, entries, stop, hRead, rfl, rfl⟩] at hError
          cases hError
  ok hOk := by
    obtain ⟨-, -, -, -, -, rfl⟩ := readTable_eq_ok_iff_every.mp hOk
    exact hCursor

section Tables

variable {contents start stop : Nat} {extents : List Extent}
  (hChained : Extent.Chained start extents stop)

include hChained

/-- When tables that follow one another are read, the last of them ends inside the file. -/
theorem stop_le_of_readTables {module result : Module} {next : Cursor}
    (hStart : contents + start ≤ cursor.bytes.size)
    (h : extents.foldlM (readTable contents) module cursor = .ok result next) :
    cursor = next ∧ contents + stop ≤ cursor.bytes.size := by
  induction extents generalizing start module with
  | nil =>
      obtain rfl : start = stop := hChained
      exact ⟨(Read.pure_eq_ok.mp h).2, hStart⟩
  | cons extent rest ih =>
      obtain ⟨rfl, hChained⟩ := hChained
      rw [List.foldlM_cons] at h
      obtain ⟨_, _, hTable, hRest⟩ := Read.bind_eq_ok.mp h
      obtain ⟨hInside, -, -, -, -, rfl⟩ := readTable_eq_ok_iff_every.mp hTable
      exact ih hChained (by omega) hRest

/-- A table that follows others is reached only when these have been read. -/
theorem truthfulAt_readTables {module : Module} (hCursor : cursor.PartOf input)
    (hStart : contents + start ≤ cursor.bytes.size) :
    TruthfulAt (ModuleError.TrueOf input) input cursor
      (extents.foldlM (readTable contents) module) := by
  induction extents generalizing start module with
  | nil => exact .pure hCursor module
  | cons extent rest ih =>
      obtain ⟨rfl, hChained⟩ := hChained
      rw [List.foldlM_cons]
      refine (truthfulAt_readTable hCursor hStart).bind fun result _ hTable _ => ?_
      obtain ⟨hInside, -, -, -, -, rfl⟩ := readTable_eq_ok_iff_every.mp hTable
      exact ih hChained (by omega)

end Tables

/-- Every error of a module is true of its file. -/
theorem truthfulAt_read (input : List UInt8) :
    TruthfulAt (ModuleError.TrueOf input) input (Cursor.ofBytes input) read := by
  have hFile := Cursor.PartOf.ofBytes input
  refine (truthfulAt_readHeader hFile).bind fun (magic, version) _ hHeader hBehind => ?_
  obtain ⟨-, -, -, rfl⟩ := readHeader_eq_ok.mp hHeader
  refine (truthfulAt_readDirectory hBehind).bind fun (extents, stop) cursor hDirectory hCursor => ?_
  obtain ⟨-, hChained, -, -, hPlace⟩ := readDirectory_eq_ok.mp hDirectory
  have hStart : cursor.position + 0 ≤ cursor.bytes.size := hCursor.position_le
  refine .get_bind ?_
  refine (truthfulAt_readTables hChained hCursor hStart).bind fun result _ hTables _ => ?_
  obtain ⟨rfl, hStop⟩ := stop_le_of_readTables hChained hStart hTables
  refine .modify_bind ?_
  have hEnd : (cursor.seek (cursor.position + stop)).PartOf input :=
    ⟨hCursor.bytes, hCursor.base_le, hStop⟩
  refine (truthfulAt_readPart (Index.truthful_codec version hEnd)).bind fun self _ _ hLast => ?_
  refine .get_bind (.guard (fun _ => hLast.offset_le) fun _ => ?_)
  exact .pure hLast _

end

theorem trueOf_of_decode {bytes : List UInt8} {error : ModuleError}
    (h : decode bytes = .error error) : error.TrueOf bytes := by
  rw [decode] at h
  cases hRead : read (Cursor.ofBytes bytes) with
  | ok module next => simp [hRead] at h
  | error found next =>
      obtain rfl : found = error := by simpa [hRead] using h
      exact (truthfulAt_read bytes).error hRead

/-- A refusal names a place in the file, and what it says of that place is so: the byte stands
there, or the number does, in its only form, and is above the bound. Where the refusal is that a
table starts elsewhere, it repeats the offset of an entry of the directory, which is another than
the one expected. -/
theorem true_of_decode_eq_error {bytes : List UInt8} {error : ModuleError}
    (h : decode bytes = .error error) :
    (∀ offset ∈ error.offset?,
      (∀ kind expected, error ≠ .nonContiguousTable kind expected offset) →
        offset ≤ bytes.length) ∧
    (∀ byte ∈ error.byte?, ∃ offset ∈ error.offset?, bytes[offset]? = some byte) ∧
    (∀ value max offset, error = .decode (.valueOutOfRange value max offset) →
      Uleb128.encode value <+: bytes.drop offset ∧ max < value) ∧
    ∀ kind expected offset, error = .nonContiguousTable kind expected offset →
      offset ≠ expected ∧
        ∃ place length, (Extent.mk kind offset length).write <+: bytes.drop place := by
  have hTrue := trueOf_of_decode h
  refine ⟨?_, ?_, ?_, ?_⟩
  · intro offset hOffset hOther
    cases error with
    | decode source =>
        obtain rfl := Option.some.inj hOffset
        exact DecodeError.TrueOf.offset_le hTrue
    | unknownTableKind byte place =>
        obtain rfl := Option.some.inj hOffset
        exact Nat.le_of_lt (List.getElem?_eq_some_iff.mp hTrue).1
    | nonContiguousTable kind expected place =>
        obtain rfl := Option.some.inj hOffset
        exact absurd rfl (hOther kind expected)
    | tableOutOfBounds | trailingBytes =>
        obtain rfl := Option.some.inj hOffset
        exact hTrue
    | _ => cases hOffset
  · intro byte hByte
    cases error with
    | decode source => exact ⟨_, rfl, DecodeError.TrueOf.getElem?_offset hTrue hByte⟩
    | unknownTableKind found place =>
        obtain rfl := Option.some.inj hByte
        exact ⟨_, rfl, hTrue⟩
    | _ => cases hByte
  · rintro value max offset rfl
    exact ⟨hTrue.2.2, hTrue.2.1⟩
  · rintro kind expected offset rfl
    exact hTrue

/-- A file with a byte that is no type, inside a vector in its table of signatures. -/
def strangeVectorBytes : List UInt8 :=
  [0xA1, 0x1C, 0xEB, 0x0B, 6, 0, 0, 0, 1, 5, 0, 3, 1, 0x0A, 0x20, 0]

/-- A file that ends behind the number of its tables and one byte more. -/
def sevenTablesBytes : List UInt8 :=
  [0xA1, 0x1C, 0xEB, 0x0B, 6, 0, 0, 0, 7, 0]

/-- The byte is found at its place in the file, and so is the number that is too large. -/
theorem true_of_decode_eq_error_vector :
    decode strangeVectorBytes = .error (.decode (.invalidSignatureToken 0x20 14)) ∧
      strangeVectorBytes[14]? = some 0x20 ∧
      decode sevenTablesBytes = .error (.decode (.valueOutOfRange 7 1 8)) ∧
      Uleb128.encode 7 <+: sevenTablesBytes.drop 8 := by
  have hVector : decode strangeVectorBytes = .error (.decode (.invalidSignatureToken 0x20 14)) :=
    rfl
  have hTables : decode sevenTablesBytes = .error (.decode (.valueOutOfRange 7 1 8)) := rfl
  obtain ⟨-, hByte, -⟩ := true_of_decode_eq_error hVector
  obtain ⟨-, -, hValue, -⟩ := true_of_decode_eq_error hTables
  obtain ⟨offset, hOffset, hStands⟩ := hByte 0x20 rfl
  obtain rfl : 14 = offset := Option.some.inj hOffset
  exact ⟨hVector, hStands, hTables, (hValue _ _ _ rfl).1⟩

/-- The offset of a table is what the directory says, which may be more than the file has bytes. -/
theorem directory_offset_beyond_input :
    let bytes : List UInt8 := [0xA1, 0x1C, 0xEB, 0x0B, 6, 0, 0, 0, 1, 1, 100, 0, 0]
    decode bytes = .error (.nonContiguousTable .moduleHandles 0 100) ∧
      ¬ ∀ error, decode bytes = .error error → ∀ offset ∈ error.offset?, offset ≤ bytes.length := by
  intro bytes
  have hDecode : decode bytes = .error (.nonContiguousTable .moduleHandles 0 100) := rfl
  refine ⟨hDecode, fun hInside => ?_⟩
  exact absurd (hInside _ hDecode 100 rfl) (by decide)

end Module

end MoveModule
