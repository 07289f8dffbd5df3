import MoveModule.Proofs.Binary.Gated
import MoveModule.Proofs.Table

/-! What a version changes about reading an entry of a table. Types of signatures, types of
constants and opcodes are looked up in the version, and everything else is read in the same way. -/
namespace MoveModule

open Binary

/-- Readers of types for two versions go the same way by induction on the levels. Only an integer
asks for the version. -/
theorem SignatureToken.follows_readWithin (version other : UInt32) (levels : Nat) :
    Read.Follows version (readWithin version levels) (readWithin other levels) := by
  induction levels with
  | zero => exact .refl _
  | succ levels ih =>
      refine Read.Follows.bind (.refl _) fun start => Read.Follows.bind (.refl _) fun tag => ?_
      cases tag using tag_cases with
      | bool | address | signer => exact .refl (pure _)
      | struct | typeParameter =>
          exact (Read.Follows.refl (Index.codec.read version)).bind fun _ => .refl _
      | reference | mutableReference | vector => exact ih.bind fun _ => .refl _
      | instantiation =>
          exact Read.Follows.bind (.refl _) fun handle => Read.Follows.bind (.refl _) fun count =>
            (ih.times count).bind fun _ => .refl _
      | other tag hOther =>
          rw [readTagged_other hOther, readTagged_other hOther]
          cases Width.ofTag? tag with
          | none => exact .refl _
          | some width => exact .gate _ (.refl _)

theorem SignatureToken.gated_codec : SignatureToken.codec.Gated :=
  fun version other => follows_readWithin version other maxTokenDepth

/-- The same for types of constants, with the vectors that have been read before in the
statement. -/
theorem ConstantType.follows_readWithin (version other : UInt32) (levels outer : Nat) :
    Read.Follows version (readWithin version levels outer) (readWithin other levels outer) := by
  induction levels generalizing outer with
  | zero => exact .refl _
  | succ levels ih =>
      refine Read.Follows.bind (.refl _) fun start => Read.Follows.bind (.refl _) fun tag => ?_
      cases tag using tag_cases with
      | bool | address => exact .refl (pure _)
      | vector => exact ih (outer + 1)
      | other tag hOther =>
          rw [readTagged_other hOther, readTagged_other hOther]
          cases Width.ofTag? tag with
          | none => exact .refl _
          | some width => exact .gate _ (.refl _)

theorem ConstantType.gated_codec : ConstantType.codec.Gated :=
  fun version other => follows_readWithin version other maxTokenDepth 0

/-- An operand has the same form in every version that has the opcode. -/
theorem OperandKind.read_codec (kind : OperandKind) (version other : UInt32) :
    kind.codec.read version = kind.codec.read other := by
  cases kind <;> rfl

/-- An opcode that a version does not have is refused before its operand. Otherwise the operand is
read in the same way. -/
theorem Instruction.gated_codec : Instruction.codec.Gated := by
  intro version other
  refine Read.Follows.bind (.refl _) fun start => Read.Follows.bind (.refl _) fun byte => ?_
  cases Opcode.ofByte? byte with
  | none => exact .refl _
  | some opcode =>
      refine .gate _ (Read.Follows.bind ?_ fun _ => .refl _)
      rw [opcode.operand.read_codec version other]
      exact .refl _

/-- Fields are read as types are. -/
theorem StructDefinition.gated_codec : StructDefinition.codec.Gated := by
  have hIndex {pool : Pool} : (@Index.codec pool).Gated := fun _ _ => .refl _
  have hPresence : StructFields.presence.Gated := fun _ _ => .refl _
  have hField : FieldDefinition.codec.Gated := (hIndex.pair SignatureToken.gated_codec).map _ _
  exact (hIndex.pair ((hPresence.andThen fun present => hField.list.when present).map _ _)).map _ _

/-- Of a function, its instructions are all that depends on the version. -/
theorem FunctionDefinition.gated_codec : FunctionDefinition.codec.Gated := by
  have hIndex {pool : Pool} : (@Index.codec pool).Gated := fun _ _ => .refl _
  have hVisibility : Visibility.codec.Gated := fun _ _ => .refl _
  have hFlags : FunctionFlags.codec.Gated := fun _ _ => .refl _
  have hCode : Code.codec.Gated := (hIndex.pair Instruction.gated_codec.list).map _ _
  exact ((hIndex.pair (hVisibility.pair hFlags)).andThen fun head =>
    hIndex.list.pair (hCode.when (!head.2.2.isNative))).map _ _

/-- Tables other than the four with types or instructions in their entries are read without a look
at the version. -/
theorem TableKind.gated_entryCodec (kind : TableKind) : kind.entryCodec.Gated := by
  have hBytes : Codec.byteString.Gated := fun _ _ => .refl _
  cases kind with
  | signatures => exact SignatureToken.gated_codec.list
  | constants => exact (ConstantType.gated_codec.pair hBytes).map _ _
  | structDefinitions => exact StructDefinition.gated_codec
  | functionDefinitions => exact FunctionDefinition.gated_codec
  | _ => exact fun _ _ => .refl _

end MoveModule
