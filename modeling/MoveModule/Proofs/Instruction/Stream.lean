import Mathlib.Algebra.Group.Nat.Defs
import MoveModule.Proofs.Instruction

/-! Rows of instructions. Nothing in the bytes says where an instruction ends, so the instructions
of a row are found only if every reader stops where the writer did. It does, and a row of bytes is
that of one row of instructions at most. -/
namespace MoveModule

open Binary

/-- A number below a power of 128 takes no more groups than the power says. -/
theorem Binary.Uleb128.length_encode_le {n count : Nat} (h : n < 128 ^ (count + 1)) :
    (encode n).length ≤ count + 1 := by
  induction count generalizing n with
  | zero => rw [encode_of_lt (by simpa using h)]; exact Nat.le_refl 1
  | succ count ih =>
      by_cases hSmall : n < 128
      · rw [encode_of_lt hSmall]
        exact Nat.le_add_left 1 (count + 1)
      · rw [encode_of_le (Nat.le_of_not_lt hSmall), List.length_cons]
        exact Nat.succ_le_succ (ih (Nat.div_lt_of_lt_mul (by rwa [← Nat.pow_succ'])))

theorem Index.length_write_le {pool : Pool} (index : Index pool) :
    (Index.codec.write index).length ≤ 3 :=
  Uleb128.length_encode_le (Nat.lt_trans index.value.toNat_lt (by decide))

/-- The longest operand is an integer of 256 bits. -/
theorem OperandKind.length_write_le (kind : OperandKind) (operand : kind.Value) :
    (kind.codec.write operand).length ≤ 32 := by
  cases kind with
  | nothing => exact Nat.zero_le 32
  | slot => exact Nat.succ_le_succ (Nat.zero_le 31)
  | target | index pool => exact Nat.le_trans (Index.length_write_le operand) (by decide)
  | integer width =>
      rw [codec, width.length_codec_write operand]
      cases width <;> decide
  | items =>
      have hType := Index.length_write_le operand.1
      have hCount : (Uleb128.encode operand.2.toNat).length ≤ 10 :=
        Uleb128.length_encode_le (Nat.lt_trans operand.2.toNat_lt (by decide))
      have hLength : (codec items).write operand =
        Index.codec.write operand.1 ++ Uleb128.encode operand.2.toNat := rfl
      rw [hLength, List.length_append]
      omega

namespace Instruction

theorem length_write_le (instruction : Instruction) : (codec.write instruction).length ≤ 33 :=
  Nat.succ_le_succ (instruction.opcode.operand.length_write_le instruction.operand)

/-- Version 6 has all instructions, and every version before it has those that are not new. -/
theorem readable_iff {instruction : Instruction} {version : UInt32} :
    instruction.Readable version ↔ 6 ≤ version ∨ instruction.opcode.isNew = false := by
  simp [Readable, Opcode.allowedIn, or_comm]

/-- An instruction is read from its own bytes and from no others. -/
theorem read_eq_ok {version : UInt32} {cursor next : Cursor} {instruction : Instruction} :
    codec.read version cursor = .ok instruction next ↔
      instruction.Readable version ∧ codec.write instruction <+: cursor.rest ∧
        next = cursor.advance (codec.write instruction).length :=
  (exact_codec version).eq_ok_iff fun value =>
    Nat.lt_of_le_of_lt value.length_write_le (by decide)

/-- Rows with the same bytes are the same. The newest version has all instructions, and it reads
both rows from these bytes. -/
theorem flatMap_write_injective :
    Function.Injective fun instructions : List Instruction =>
      instructions.flatMap codec.write := by
  intro left right hSame
  have hReadable (instruction : Instruction) : instruction.Readable 6 :=
    readable_iff.mpr (.inl (by decide))
  have hRead (instructions : List Instruction)
      (hBytes : instructions.flatMap codec.write = left.flatMap codec.write) :
      Read.every (codec.read 6) (Cursor.ofBytes (left.flatMap codec.write)) =
        .ok instructions.toArray _ :=
    (Read.every_eq_ok read_eq_ok write_ne_nil).mpr
      ⟨fun instruction _ => hReadable instruction, by rw [Cursor.rest_ofBytes, hBytes], rfl⟩
  have hFound := (hRead left rfl).symm.trans (hRead right hSame.symm)
  exact List.toArray_inj (EStateM.Result.ok.inj hFound).1

/-- A row of bytes is read as a row of instructions up to its end if and only if it is put
together from the bytes of these instructions and the version has them all. So no two rows of
instructions have the same bytes. Wherever an instruction is found, it is its own bytes that have
been read. -/
theorem every_eq_ok_iff_written (version : UInt32) :
    (∀ (cursor next : Cursor) (instructions : Array Instruction),
      Read.every (codec.read version) cursor = .ok instructions next ↔
        (6 ≤ version ∨ ∀ instruction ∈ instructions.toList, instruction.opcode.isNew = false) ∧
          instructions.toList.flatMap codec.write = cursor.rest ∧
          next = cursor.advance cursor.remaining) ∧
    (Function.Injective fun instructions : List Instruction =>
      instructions.flatMap codec.write) ∧
    ∀ (cursor next : Cursor) (instruction : Instruction),
      codec.read version cursor = .ok instruction next ↔
        (6 ≤ version ∨ instruction.opcode.isNew = false) ∧
          codec.write instruction <+: cursor.rest ∧
          next = cursor.advance (codec.write instruction).length := by
  refine ⟨?_, flatMap_write_injective, ?_⟩
  · intro cursor next instructions
    rw [Read.every_eq_ok read_eq_ok write_ne_nil]
    by_cases hVersion : 6 ≤ version <;> simp [readable_iff, hVersion]
  · intro cursor next instruction
    rw [read_eq_ok, readable_iff]

end Instruction

end MoveModule
