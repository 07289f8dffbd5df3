import MoveModule.Module.Decode
import MoveModule.Proofs.Binary.Exact

/-! What stands in front of the tables of a module: the magic bytes, the version and the
directory. A directory is read if its tables follow one another and are all different. -/
namespace MoveModule

open Binary

namespace Extent

/-- The entry of the directory. -/
def write (extent : Extent) : List UInt8 :=
  extent.kind.byte :: (Uleb128.encode extent.offset ++ Uleb128.encode extent.length)

/-- An entry of the directory is a byte and two numbers. -/
theorem length_write (extent : Extent) :
    extent.write.length =
      1 + ((Uleb128.encode extent.offset).length + (Uleb128.encode extent.length).length) := by
  rw [write, List.length_cons, List.length_append, Nat.add_comm]

theorem write_ne_nil (extent : Extent) : extent.write ≠ [] :=
  List.cons_ne_nil _ _

/-- An entry stands in front of the cursor if its three parts stand there one after the other. -/
theorem write_prefix_iff {extent : Extent} {cursor : Cursor} :
    extent.write <+: cursor.rest ↔ [extent.kind.byte] <+: cursor.rest ∧
      Uleb128.encode extent.offset <+: (cursor.advance 1).rest ∧
        Uleb128.encode extent.length <+:
          (cursor.advance (1 + (Uleb128.encode extent.offset).length)).rest := by
  rw [write, ← List.singleton_append, append_prefix_iff, append_prefix_iff]
  simp only [Cursor.rest_advance, List.drop_drop, List.length_singleton]

/-- Both numbers have a place in the directory. -/
def Bounded (extent : Extent) : Prop :=
  extent.offset ≤ 0xFFFFFFFF ∧ extent.length ≤ 0xFFFFFFFF

/-- Tables that follow one another, the first of which starts at `start` while the last
one ends at `stop`. -/
def Chained : (start : Nat) → List Extent → (stop : Nat) → Prop
  | start, [], stop => start = stop
  | start, extent :: rest, stop =>
      extent.offset = start ∧ Chained (start + extent.length) rest stop

end Extent

namespace Module

/-- An error of a part is only told as one of the module. What is read stays the same. -/
theorem readPart_eq_ok {α : Type} {read : Read α} {cursor next : Cursor} {value : α} :
    readPart read cursor = .ok value next ↔ read cursor = .ok value next :=
  Read.mapError_eq_ok

/-- The first eight bytes are the magic number and a version that is supported, in that order. -/
theorem readHeader_eq_ok {cursor next : Cursor} {magic : Block 4} {version : UInt32} :
    readHeader cursor = .ok (magic, version) next ↔
      magic = magicBytes ∧ isSupported version = true ∧
        magic.val ++ LittleEndian.encode 4 version.toNat <+: cursor.rest ∧
          next = cursor.advance 8 := by
  have hWord (n : Nat) : UInt32.ofNat n = version ↔ BitVec.ofNat (8 * 4) n = version.toBitVec :=
    UInt32.toBitVec_inj.symm
  have hLength : magic.val.length = 4 := magic.property
  have hVersion := @Read.word_eq_ok (cursor.advance 4) next 4 version.toBitVec
  rw [append_prefix_iff, hLength, ← Cursor.rest_advance, ← Cursor.advance_advance cursor 4 4]
  simp only [readHeader, Read.bind_eq_ok, Read.ite_eq_ok, Read.pure_eq_ok, Read.throw_eq_ok,
    readPart_eq_ok, Read.block_eq_ok, false_and, and_false, exists_false, false_or]
  constructor
  · intro h
    obtain ⟨_, _, ⟨hMagic, rfl⟩, hSame, n, _, hRead, hSupported, hPair, rfl⟩ := h
    obtain ⟨rfl, rfl⟩ := Prod.mk.inj hPair
    obtain ⟨hPrefix, hNext⟩ := hVersion.mp ⟨n, hRead, (hWord n).mp rfl⟩
    rw [Bool.not_eq_true', Bool.not_eq_false] at hSupported
    exact ⟨Decidable.not_not.mp hSame, hSupported, ⟨hMagic, hPrefix⟩, hNext⟩
  · intro h
    obtain ⟨rfl, hSupported, ⟨hMagic, hRest⟩, hNext⟩ := h
    obtain ⟨n, hRead, hValue⟩ := hVersion.mpr ⟨hRest, hNext⟩
    obtain rfl := (hWord n).mpr hValue
    rw [← Bool.not_eq_false, ← Bool.not_eq_true'] at hSupported
    exact ⟨_, _, ⟨hMagic, rfl⟩, not_not_intro rfl, n, next, hRead, hSupported, rfl, rfl⟩

/-- One entry of the directory, which starts where the table before it ends and is of a
kind that has not occurred. -/
theorem readExtents_succ_eq_ok {count start : Nat} {sofar : List Extent}
    {result : List Extent × Nat} {cursor next : Cursor} :
    readExtents (count + 1) start sofar cursor = .ok result next ↔
      ∃ extent : Extent, extent.offset = start ∧ extent.kind ∉ sofar.map Extent.kind ∧
        extent.Bounded ∧ extent.write <+: cursor.rest ∧
        readExtents count (start + extent.length) (extent :: sofar)
          (cursor.advance extent.write.length) = .ok result next := by
  simp only [readExtents, Read.bind_eq_ok, readPart_eq_ok, Read.offset_eq_ok, Read.byte_eq_ok]
  constructor
  · intro h
    obtain ⟨_, _, ⟨rfl, rfl⟩, byte, _, ⟨hByte, rfl⟩, hRead⟩ := h
    cases hKind : TableKind.ofByte? byte with
    | none => simp [hKind] at hRead
    | some kind =>
        obtain rfl := TableKind.byte_of_ofByte? hKind
        simp only [hKind, Read.bind_eq_ok, Read.ite_eq_ok, Read.throw_eq_ok, readPart_eq_ok,
          Read.bounded_eq_ok, false_and, and_false, exists_false, false_or] at hRead
        obtain ⟨hNew, offset, _, ⟨hOffset, _, hOffsetRead, rfl⟩, length, _,
          ⟨hLength, _, hLengthRead, rfl⟩, hStart, hRest⟩ := hRead
        obtain rfl := Decidable.not_not.mp hStart
        refine ⟨⟨kind, offset, length⟩, rfl, ?_, ⟨hOffset, hLength⟩, ?_, ?_⟩
        · simpa using hNew
        · rw [Cursor.advance_advance] at hLengthRead
          exact Extent.write_prefix_iff.mpr ⟨hByte, hOffsetRead, hLengthRead⟩
        · rw [Cursor.advance_advance, Cursor.advance_advance] at hRest
          rwa [Extent.length_write]
  · intro h
    obtain ⟨⟨kind, offset, length⟩, rfl, hNew, ⟨hOffset, hLength⟩, hPrefix, hRest⟩ := h
    obtain ⟨hByte, hOffsetRead, hLengthRead⟩ := Extent.write_prefix_iff.mp hPrefix
    rw [Extent.length_write, ← Cursor.advance_advance, ← Cursor.advance_advance] at hRest
    rw [← Cursor.advance_advance] at hLengthRead
    refine ⟨_, _, ⟨rfl, rfl⟩, kind.byte, _, ⟨hByte, rfl⟩, ?_⟩
    simp only [TableKind.ofByte?_byte, Read.bind_eq_ok, Read.ite_eq_ok, Read.throw_eq_ok,
      readPart_eq_ok, Read.bounded_eq_ok, false_and, and_false, exists_false, false_or]
    have hOffsetSize : offset < UInt64.size := Nat.lt_of_le_of_lt hOffset (by decide)
    have hLengthSize : length < UInt64.size := Nat.lt_of_le_of_lt hLength (by decide)
    refine ⟨by simpa using hNew, offset, _, ⟨hOffset, hOffsetSize, hOffsetRead, rfl⟩, ?_⟩
    exact ⟨length, _, ⟨hLength, hLengthSize, hLengthRead, rfl⟩, not_not_intro rfl, hRest⟩

/-- The entries of a directory are taken one by one. The kinds of those before them, which
are all different, do not occur again. -/
theorem readExtents_eq_ok {count start stop : Nat} {sofar extents : List Extent}
    {cursor next : Cursor} (hSofar : (sofar.map Extent.kind).Nodup) :
    readExtents count start sofar cursor = .ok (extents, stop) next ↔
      ∃ later, extents = sofar.reverse ++ later ∧ later.length = count ∧
        (extents.map Extent.kind).Nodup ∧ Extent.Chained start later stop ∧
        (∀ extent ∈ later, extent.Bounded) ∧ later.flatMap Extent.write <+: cursor.rest ∧
        next = cursor.advance (later.flatMap Extent.write).length := by
  induction count generalizing start sofar cursor with
  | zero =>
      have hReverse : (sofar.reverse.map Extent.kind).Nodup := by
        grind
      simp only [readExtents, Read.pure_eq_ok, Prod.mk.injEq, List.length_eq_zero_iff]
      constructor
      · intro h
        obtain ⟨⟨rfl, rfl⟩, rfl⟩ := h
        exact ⟨[], by simp, rfl, hReverse, rfl, by simp, by simp, rfl⟩
      · intro h
        obtain ⟨_, rfl, rfl, _, rfl, _, _, rfl⟩ := h
        simp
  | succ count ih =>
      rw [readExtents_succ_eq_ok]
      constructor
      · intro h
        obtain ⟨extent, rfl, hNew, hBounded, hPrefix, hRest⟩ := h
        have hMore : ((extent :: sofar).map Extent.kind).Nodup :=
          List.nodup_cons.mpr ⟨hNew, hSofar⟩
        obtain ⟨later, rfl, rfl, hKinds, hChained, hLater, hRestPrefix, rfl⟩ := (ih hMore).mp hRest
        have hAll := List.forall_mem_cons.mpr ⟨hBounded, hLater⟩
        rw [Cursor.rest_advance] at hRestPrefix
        refine ⟨extent :: later, by simp, rfl, hKinds, ⟨rfl, hChained⟩, hAll, ?_, by simp⟩
        rw [List.flatMap_cons, append_prefix_iff]
        exact ⟨hPrefix, hRestPrefix⟩
      · intro h
        rcases h with ⟨_ | ⟨extent, later⟩, rfl, hCount, hKinds, hChained, hBounded, hPrefix, rfl⟩
        · simp at hCount
        · obtain ⟨rfl, hChained⟩ := hChained
          obtain ⟨hExtent, hLater⟩ := List.forall_mem_cons.mp hBounded
          rw [List.flatMap_cons, append_prefix_iff, ← Cursor.rest_advance] at hPrefix
          have hMore : ((extent :: sofar).map Extent.kind).Nodup := by
            grind [List.nodup_append]
          obtain ⟨hNew, -⟩ := List.nodup_cons.mp hMore
          refine ⟨extent, rfl, hNew, hExtent, hPrefix.1, (ih hMore).mpr ⟨later, ?_⟩⟩
          exact ⟨by simp, Nat.succ.inj hCount, hKinds, hChained, hLater, hPrefix.2, by simp⟩

/-- A directory is read from the bytes that are written for it. Its kinds are all different, its
tables follow one another without a gap, and all its numbers fit in 32 bits. -/
theorem readDirectory_eq_ok {extents : List Extent} {stop : Nat} {cursor next : Cursor} :
    readDirectory cursor = .ok (extents, stop) next ↔
      (extents.map Extent.kind).Nodup ∧ Extent.Chained 0 extents stop ∧
        (∀ extent ∈ extents, extent.Bounded) ∧
        Uleb128.encode extents.length ++ extents.flatMap Extent.write <+: cursor.rest ∧
        next = cursor.advance
          (Uleb128.encode extents.length ++ extents.flatMap Extent.write).length := by
  have hNone : (([] : List Extent).map Extent.kind).Nodup := List.nodup_nil
  simp only [readDirectory, Read.bind_eq_ok, readPart_eq_ok, Read.count_eq_ok,
    readExtents_eq_ok hNone, append_prefix_iff, List.length_append]
  constructor
  · intro h
    obtain ⟨_, _, ⟨_, _, hCount, rfl⟩, _, rfl, rfl, hKinds, hChained, hBounded, hPrefix, rfl⟩ := h
    rw [Cursor.rest_advance] at hPrefix
    exact ⟨hKinds, hChained, hBounded, ⟨hCount, hPrefix⟩, Cursor.advance_advance _ _ _⟩
  · intro h
    obtain ⟨hKinds, hChained, hBounded, ⟨hCount, hPrefix⟩, rfl⟩ := h
    refine ⟨extents.length, _, ⟨?_, ?_, hCount, rfl⟩, extents, rfl, rfl, hKinds, hChained,
      hBounded, by simpa using hPrefix, by simp⟩
    · have hWritten := Read.length_le_length_flatMap Extent.write_ne_nil extents
      have hRemaining := hPrefix.length_le
      have hSome := Uleb128.length_encode_pos extents.length
      rw [List.length_drop, Cursor.length_rest] at hRemaining
      omega
    · have hFew := List.Nodup.length_le_of_subset hKinds
        fun kind _ => TableKind.mem_canonicalOrder kind
      rw [List.length_map] at hFew
      exact Nat.lt_of_le_of_lt hFew (by decide)

end Module

end MoveModule
