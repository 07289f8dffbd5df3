import MoveModule.Proofs.Constant.Type
import MoveModule.Proofs.Signature.Encoding

/-! Types of constants as types of signatures. Constants have a reader of their own, which counts
vectors and puts them around the innermost type in the end. It takes the same bytes as the reader
of signatures, which follows the nesting, and stops at the same limit. -/
namespace MoveModule.ConstantType

open Binary

theorem write_token (type : ConstantType) : type.token.write = type.write := by
  induction type with
  | vector item ih => rw [token, SignatureToken.write, ih, write]
  | bool | integer width | address => rfl

/-- There are no structs in it, and so no arguments to be counted. -/
theorem countable_token (type : ConstantType) : type.token.Countable := by
  induction type with
  | vector item ih => simpa [token, SignatureToken.Countable, SignatureToken.nodes] using ih
  | bool | integer width | address =>
      simp [token, SignatureToken.Countable, SignatureToken.nodes]

/-- A type of constants is found in some bytes where the same type of signatures is found in them,
and it ends in the same place. Both are written with the same bytes. -/
theorem read_eq_ok_iff_token (type : ConstantType) :
    (∀ (version : UInt32) (cursor next : Cursor),
      codec.read version cursor = .ok type next ↔
        SignatureToken.codec.read version cursor = .ok type.token next) ∧
    codec.write type = SignatureToken.codec.write type.token := by
  refine ⟨?_, (write_token type).symm⟩
  intro version cursor next
  rw [read_eq_ok, (countable_token type).read_eq_ok, write_token, Readable]

end MoveModule.ConstantType
