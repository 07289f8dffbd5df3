import MoveModule.Module.Machine
import MoveModule.Proofs.Binary.Machine
import MoveModule.Proofs.Module.Truthful

/-! Reading a module stays inside the file and comes to an end. The numbers of a directory are
those of the file, but tables follow one another, so that no sum of them leaves the words and no
table is cut out of more than there is. The loop over the entries of a table has no number of
entries to go by. It ends because every entry takes a byte or more. -/
namespace MoveModule

open Binary

namespace Binary.Read

variable {α : Type}

/-- What is read takes a byte or more, and none behind the end. -/
def Advances (read : Read α) : Prop :=
  ∀ ⦃cursor next : Cursor⦄ ⦃value : α⦄, read cursor = .ok value next →
    next.bytes = cursor.bytes ∧ next.base = cursor.base ∧ cursor.position < next.position ∧
      next.position ≤ cursor.bytes.size

/-- A read of bytes that are written for a value takes all of these. -/
theorem Exact.advances {read : Read α} {write : α → List UInt8} {admits : α → Prop}
    (h : read.Exact write admits) (hWrite : ∀ value, write value ≠ []) : read.Advances := by
  intro cursor next value hRead
  obtain ⟨-, hBytes, rfl⟩ := h.sound hRead
  have hSome := List.length_pos_iff.mpr (hWrite value)
  have hInside := Cursor.length_le_remaining hBytes
  rw [Cursor.remaining] at hInside
  refine ⟨rfl, rfl, Nat.lt_add_of_pos_right hSome, ?_⟩
  change cursor.position + (write value).length ≤ cursor.bytes.size
  omega

/-- A loop that reads items while bytes are left, with the number of times that it reads. There is
no limit to this number. -/
inductive Loops (read : Read α) :
    Cursor → Array α → (passes : Nat) → EStateM.Result DecodeError Cursor (Array α) → Prop
  | done {cursor : Cursor} {sofar : Array α} (hEnd : cursor.hasMore = false) :
      Loops read cursor sofar 0 (.ok sofar cursor)
  | refused {cursor next : Cursor} {sofar : Array α} {error : DecodeError}
      (hMore : cursor.hasMore = true) (hRead : read cursor = .error error next) :
      Loops read cursor sofar 1 (.error error next)
  | pass {cursor next : Cursor} {sofar : Array α} {item : α} {passes : Nat}
      {result : EStateM.Result DecodeError Cursor (Array α)} (hMore : cursor.hasMore = true)
      (hRead : read cursor = .ok item next)
      (hRest : Loops read next (sofar.push item) passes result) :
      Loops read cursor sofar (passes + 1) result

/-- There is one way through the loop. -/
theorem Loops.unique {read : Read α} {cursor : Cursor} {sofar : Array α} {passes others : Nat}
    {result other : EStateM.Result DecodeError Cursor (Array α)}
    (h : Loops read cursor sofar passes result) (hOther : Loops read cursor sofar others other) :
    others = passes ∧ other = result := by
  induction h generalizing others with
  | done hEnd =>
      cases hOther with
      | done => exact ⟨rfl, rfl⟩
      | refused hMore | pass hMore => exact absurd (hEnd.symm.trans hMore) Bool.false_ne_true
  | refused hMore hRead =>
      cases hOther with
      | done hEnd => exact absurd (hEnd.symm.trans hMore) Bool.false_ne_true
      | refused _ hSame =>
          obtain ⟨rfl, rfl⟩ := EStateM.Result.error.inj (hRead.symm.trans hSame)
          exact ⟨rfl, rfl⟩
      | pass _ hSame => exact nomatch hRead.symm.trans hSame
  | pass hMore hRead _ ih =>
      cases hOther with
      | done hEnd => exact absurd (hEnd.symm.trans hMore) Bool.false_ne_true
      | refused _ hSame => exact nomatch hRead.symm.trans hSame
      | pass _ hSame hRest =>
          obtain ⟨rfl, rfl⟩ := EStateM.Result.ok.inj (hRead.symm.trans hSame)
          obtain ⟨rfl, rfl⟩ := ih hRest
          exact ⟨rfl, rfl⟩

/-- A loop whose items take a byte or more reads no more often than there are bytes left. So a
limit of as many does not change it. -/
theorem Advances.loops_everyOnto {read : Read α} (h : read.Advances) {limit : Nat}
    {sofar : Array α} {cursor : Cursor} (hLimit : cursor.remaining ≤ limit) :
    ∃ passes ≤ cursor.remaining,
      Loops read cursor sofar passes (everyOnto read limit sofar cursor) := by
  induction limit generalizing sofar cursor with
  | zero =>
      have hEnd : cursor.hasMore = false := by
        rw [← Bool.not_eq_true, Cursor.hasMore_iff, ← List.length_pos_iff, Cursor.length_rest]
        omega
      exact ⟨0, Nat.zero_le _, .done hEnd⟩
  | succ limit ih =>
      rw [everyOnto_succ]
      by_cases hMore : cursor.hasMore = true
      · have hLeft : 0 < cursor.remaining := by
          rwa [Cursor.hasMore_iff, ← List.length_pos_iff, Cursor.length_rest] at hMore
        rw [if_pos hMore]
        cases hRead : read cursor with
        | error error next =>
            rw [bind_of_eq_error hRead]
            exact ⟨1, hLeft, .refused hMore hRead⟩
        | ok item next =>
            obtain ⟨hBytes, -, hForward, -⟩ := h hRead
            have hFewer : next.remaining < cursor.remaining := by
              rw [Cursor.remaining] at hLeft
              rw [Cursor.remaining, Cursor.remaining, hBytes]
              omega
            obtain ⟨passes, hPasses, hRest⟩ := @ih (sofar.push item) next (by omega)
            rw [bind_of_eq_ok hRead]
            exact ⟨passes + 1, by omega, .pass hMore hRead hRest⟩
      · rw [if_neg hMore]
        exact ⟨0, Nat.zero_le _, .done (Bool.eq_false_of_not_eq_true hMore)⟩

/-- The loop comes to an end after as many passes as there are bytes left or fewer, and gives what
reading with that limit gives. -/
theorem Advances.loops_every {read : Read α} (h : read.Advances) (cursor : Cursor) :
    ∃ passes ≤ cursor.remaining, Loops read cursor #[] passes (every read cursor) ∧
      ∀ others result, Loops read cursor #[] others result →
        others = passes ∧ result = every read cursor := by
  obtain ⟨passes, hPasses, hLoops⟩ := h.loops_everyOnto (Nat.le_refl cursor.remaining)
  exact ⟨passes, hPasses, hLoops, fun _ _ hOther => hLoops.unique hOther⟩

end Binary.Read

/-- The most bytes that stand together in the memory of a machine. -/
def maxBlock : Nat := 0x7FFFFFFFFFFFFFFF

/-- Whatever the table and the version, an entry takes a byte or more. -/
theorem TableKind.advances_entryCodec (kind : TableKind) (version : UInt32) :
    (kind.entryCodec.read version).Advances :=
  (kind.exact_entryCodec version).advances kind.write_entry_ne_nil

namespace Module

open Binary.Read (mapError mapError_bind mapError_guard)

section Range

variable {cursor : Cursor}

/-- No two numbers of a directory add up to more than a word. -/
theorem Machine.readExtents_eq {count expected : Nat} {sofar : List Extent} :
    Machine.readExtents count expected sofar cursor =
      mapError .refusal (Module.readExtents count expected sofar) cursor := by
  induction count generalizing expected sofar cursor with
  | zero => rfl
  | succ count ih =>
      refine mapError_bind rfl fun start _ _ => mapError_bind rfl fun byte _ _ => ?_
      cases TableKind.ofByte? byte with
      | none => rfl
      | some kind =>
          refine mapError_guard fun _ => mapError_bind rfl fun offset _ hOffset => ?_
          refine mapError_bind rfl fun length _ hLength => mapError_guard fun _ => ?_
          obtain ⟨hOffsetSize, -⟩ := Read.bounded_eq_ok.mp (readPart_eq_ok.mp hOffset)
          obtain ⟨hLengthSize, -⟩ := Read.bounded_eq_ok.mp (readPart_eq_ok.mp hLength)
          have hSum : offset + length < UInt64.size :=
            Nat.lt_of_le_of_lt (Nat.add_le_add hOffsetSize hLengthSize) (by decide)
          rw [Binary.Machine.add_of_lt hSum, pure_bind]
          exact ih

theorem Machine.readDirectory_eq :
    Machine.readDirectory cursor = mapError .refusal Module.readDirectory cursor :=
  mapError_bind rfl fun _ _ _ => Machine.readExtents_eq

/-- A table is cut out of the file only where it lies inside. -/
theorem Machine.readTable_eq {contents : Nat} {module : Module} {extent : Extent}
    (hSum : contents + extent.offset + extent.length < UInt64.size) :
    Machine.readTable contents module extent cursor =
      mapError .refusal (Module.readTable contents module extent) cursor := by
  have hStart : contents + extent.offset < UInt64.size :=
    Nat.lt_of_le_of_lt (Nat.le_add_right _ _) hSum
  rw [Machine.readTable, Binary.Machine.add_of_lt hStart, pure_bind,
    Binary.Machine.add_of_lt hSum, pure_bind, Read.get_bind, mapError]
  by_cases hShort : cursor.bytes.size < contents + extent.offset + extent.length
  · simp only [Module.readTable, if_pos hShort]
    rfl
  · simp only [if_neg hShort, Module.readTable]
    rw [Binary.Machine.cut, if_pos ⟨Nat.le_add_right _ _, Nat.le_of_not_lt hShort⟩, pure_bind]
    simp only [Cursor.window]
    cases Read.every (extent.kind.entryCodec.read module.version) _ <;> rfl

/-- The numbers of a table that lies in a block of memory are too small to leave the words. -/
theorem Machine.foldlM_readTable_eq {contents : Nat} {module : Module} {extents : List Extent}
    (hContents : contents ≤ maxBlock) (hBounded : ∀ extent ∈ extents, extent.Bounded) :
    extents.foldlM (Machine.readTable contents) module cursor =
      mapError .refusal (extents.foldlM (Module.readTable contents) module) cursor := by
  induction extents generalizing module cursor with
  | nil => rfl
  | cons extent rest ih =>
      obtain ⟨⟨hOffset, hLength⟩, hRest⟩ := List.forall_mem_cons.mp hBounded
      have hSum : contents + extent.offset + extent.length < UInt64.size :=
        Nat.lt_of_le_of_lt (Nat.add_le_add (Nat.add_le_add hContents hOffset) hLength) (by decide)
      rw [List.foldlM_cons, List.foldlM_cons]
      exact mapError_bind (Machine.readTable_eq hSum) fun _ _ _ => ih hRest

/-- Behind the directory the cursor is in the file. -/
theorem position_le_of_readDirectory {bytes : List UInt8} {magic : Block 4} {version : UInt32}
    {extents : List Extent} {stop : Nat} {start cursor : Cursor}
    (hHeader : readHeader (Cursor.ofBytes bytes) = .ok (magic, version) start)
    (hDirectory : readDirectory start = .ok (extents, stop) cursor) :
    cursor.bytes = bytes.toArray ∧ cursor.position ≤ bytes.length := by
  obtain ⟨rfl, -, hMagic, rfl⟩ := readHeader_eq_ok.mp hHeader
  obtain ⟨-, -, -, hEntries, rfl⟩ := readDirectory_eq_ok.mp hDirectory
  have hStart := Cursor.position_advance_le (Nat.zero_le bytes.length) hMagic
  exact ⟨rfl, Cursor.position_advance_le hStart hEntries⟩

/-- Behind the last table the file goes on or ends there, but the place is in it. -/
theorem position_add_stop_le {bytes : List UInt8} {magic : Block 4} {version : UInt32}
    {extents : List Extent} {stop : Nat} {start cursor last : Cursor} {module : Module}
    (hHeader : readHeader (Cursor.ofBytes bytes) = .ok (magic, version) start)
    (hDirectory : readDirectory start = .ok (extents, stop) cursor)
    (hTables : extents.foldlM (readTable cursor.position)
      { empty version with magic := magic } cursor = .ok module last) :
    last = cursor ∧ cursor.position + stop ≤ bytes.length := by
  obtain ⟨hBytes, hPlace⟩ := position_le_of_readDirectory hHeader hDirectory
  obtain ⟨-, hChained, -⟩ := readDirectory_eq_ok.mp hDirectory
  have hSize : cursor.bytes.size = bytes.length := by rw [hBytes, List.size_toArray]
  have hStart : cursor.position + 0 ≤ cursor.bytes.size := hSize ▸ hPlace
  obtain ⟨rfl, hStop⟩ := stop_le_of_readTables hChained hStart hTables
  exact ⟨rfl, hSize ▸ hStop⟩

/-- A file is read on a machine without a stop. -/
theorem Machine.read_eq {bytes : List UInt8} (hSize : bytes.length ≤ maxBlock) :
    Machine.read (Cursor.ofBytes bytes) = mapError .refusal Module.read (Cursor.ofBytes bytes) := by
  refine mapError_bind rfl fun (magic, version) start hHeader => ?_
  refine mapError_bind Machine.readDirectory_eq fun (extents, stop) cursor hDirectory => ?_
  obtain ⟨-, hPlace⟩ := position_le_of_readDirectory hHeader hDirectory
  obtain ⟨-, -, hBounded, -⟩ := readDirectory_eq_ok.mp hDirectory
  refine mapError_bind rfl fun _ _ hHere => ?_
  obtain ⟨rfl, rfl⟩ := Read.get_eq_ok.mp hHere
  refine mapError_bind (Machine.foldlM_readTable_eq (Nat.le_trans hPlace hSize) hBounded)
    fun module last hTables => ?_
  obtain ⟨rfl, hStop⟩ := position_add_stop_le hHeader hDirectory hTables
  have hSum := Nat.lt_of_le_of_lt (Nat.le_trans hStop hSize) (show maxBlock < UInt64.size by decide)
  rw [Binary.Machine.add_of_lt hSum, pure_bind]
  refine mapError_bind rfl fun _ _ _ => mapError_bind rfl fun self _ _ => ?_
  exact mapError_bind rfl fun _ _ _ => mapError_guard fun _ => rfl

/-- So a file is a module on a machine, or is refused there, as it is to any reader. -/
theorem Machine.decode_eq {bytes : List UInt8} (hSize : bytes.length ≤ maxBlock) :
    Machine.decode bytes = (Module.decode bytes).mapError .refusal := by
  rw [Machine.decode, Machine.read_eq hSize, Module.decode, mapError]
  cases Module.read (Cursor.ofBytes bytes) <;> rfl

end Range

/-- A file of any bytes is read through or refused. On a machine no sum of places leaves the words
and no table is cut out of more bytes than there are, so that nothing else comes of it. The place
behind the tables is in the file. Every entry takes a byte or more and none behind the end of its
table, and the loop over the entries of a table ends after as many passes as the table has bytes or
fewer. -/
theorem decode_stays_inside_and_ends {bytes : List UInt8} (hSize : bytes.length ≤ maxBlock) :
    Machine.decode bytes = (Module.decode bytes).mapError .refusal ∧
    (∀ magic version start extents stop cursor module last,
      readHeader (Cursor.ofBytes bytes) = .ok (magic, version) start →
      readDirectory start = .ok (extents, stop) cursor →
      extents.foldlM (readTable cursor.position)
        { empty version with magic := magic } cursor = .ok module last →
      last = cursor ∧ cursor.position + stop ≤ bytes.length) ∧
    (∀ (kind : TableKind) version, (kind.entryCodec.read version).Advances) ∧
    ∀ (kind : TableKind) version cursor, ∃ passes ≤ cursor.remaining,
      Read.Loops (kind.entryCodec.read version) cursor #[] passes
        (Read.every (kind.entryCodec.read version) cursor) ∧
      ∀ others result, Read.Loops (kind.entryCodec.read version) cursor #[] others result →
        others = passes ∧ result = Read.every (kind.entryCodec.read version) cursor :=
  ⟨Machine.decode_eq hSize,
    fun _ _ _ _ _ _ _ _ hHeader hDirectory hTables =>
      position_add_stop_le hHeader hDirectory hTables,
    TableKind.advances_entryCodec,
    fun kind version cursor => (kind.advances_entryCodec version).loops_every cursor⟩

/-- A file with a table of names, M and N, whose directory says how many bytes it has. -/
def namesTableBytes (length : UInt8) : List UInt8 :=
  [0xA1, 0x1C, 0xEB, 0x0B, 6, 0, 0, 0, 1, 7, 0, length, 1, 0x4D, 1, 0x4E, 0]

/-- The table is cut out of the file and read through, or it is not cut out at all. -/
theorem decode_stays_inside_and_ends_names :
    ((namesTableBytes 4).length ≤ maxBlock ∧
      ∃ module, Machine.decode (namesTableBytes 4) = .ok module ∧ module.size .identifiers = 2) ∧
    (namesTableBytes 6).length ≤ maxBlock ∧
      Machine.decode (namesTableBytes 6) =
        .error (.refusal (.tableOutOfBounds .identifiers 0 6)) := by
  have hShort : (namesTableBytes 4).length ≤ maxBlock := by decide
  have hLong : (namesTableBytes 6).length ≤ maxBlock := by decide
  refine ⟨⟨hShort, _, (decode_stays_inside_and_ends hShort).1.trans rfl, rfl⟩, hLong, ?_⟩
  exact (decode_stays_inside_and_ends hLong).1.trans rfl

end Module

end MoveModule
