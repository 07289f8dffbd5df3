import MoveModule.Instruction
import MoveModule.Proofs.Signature

/-! Which instructions can be read. Only the opcode decides, since its operand has a form
in every version. -/
namespace MoveModule

open Binary

/-- The form of an operand is given by its kind alone. A kind that says nothing takes no bytes, and
every operand of the other kinds can be written and read in all versions. -/
theorem OperandKind.exact_codec (kind : OperandKind) : kind.codec.Exact fun _ _ => True := by
  cases kind with
  | nothing =>
      intro version
      apply Read.Exact.of_eq_ok
      intro cursor next value
      constructor
      · intro h
        obtain ⟨_, rfl⟩ := Read.pure_eq_ok.mp h
        exact ⟨trivial, List.nil_prefix, rfl⟩
      · intro hNothing
        rcases hNothing with ⟨_, _, rfl⟩
        rfl
  | target => exact Index.exact_codec
  | slot => exact Codec.exact_byte
  | integer width => exact width.exact_codec
  | index pool => exact Index.exact_codec
  | items => exact (Index.exact_codec.pair Codec.exact_uleb128).congr fun _ _ => and_self_iff

namespace Instruction

/-- A reader for the version takes the instruction. -/
def Readable (instruction : Instruction) (version : UInt32) : Prop :=
  instruction.opcode.allowedIn version = true

/-- An instruction takes the byte of its opcode at least. -/
theorem write_ne_nil (instruction : Instruction) : codec.write instruction ≠ [] := by
  simp [codec]

/-- An instruction is read if and only if the version has its opcode. The operand behind it is read
as the opcode says, and never refused for what it is. -/
theorem exact_codec : codec.Exact fun version instruction => instruction.Readable version := by
  intro version
  apply Read.Exact.mk
  · intro cursor next instruction h
    simp only [codec, Read.bind_eq_ok, Read.offset_eq_ok, Read.byte_eq_ok] at h
    obtain ⟨_, _, ⟨rfl, rfl⟩, byte, _, ⟨hByte, rfl⟩, hRead⟩ := h
    cases hOpcode : Opcode.ofByte? byte with
    | none => simp [hOpcode] at hRead
    | some opcode =>
        obtain rfl := Opcode.byte_of_ofByte? hOpcode
        simp only [hOpcode, Read.ite_eq_ok, Read.bind_eq_ok, Read.pure_eq_ok, Read.throw_eq_ok,
          and_false, or_false] at hRead
        obtain ⟨hAllowed, operand, _, hOperand, rfl, rfl⟩ := hRead
        obtain ⟨_, hWritten⟩ := (opcode.operand.exact_codec version).sound_after hByte hOperand
        exact ⟨hAllowed, hWritten⟩
  · intro cursor instruction hAllowed hSize hPrefix
    rcases instruction with ⟨opcode, operand⟩
    obtain ⟨hByte, hOperand⟩ :=
      (opcode.operand.exact_codec version).complete_after operand trivial hSize hPrefix
    simp only [codec, Read.bind_eq_ok, Read.offset_eq_ok, Read.byte_eq_ok]
    refine ⟨_, _, ⟨rfl, rfl⟩, opcode.byte, _, ⟨hByte, rfl⟩, ?_⟩
    simp only [Opcode.ofByte?_byte, Read.ite_eq_ok, Read.bind_eq_ok, Read.pure_eq_ok]
    exact .inl ⟨hAllowed, operand, _, hOperand, rfl, rfl⟩

end Instruction

end MoveModule
