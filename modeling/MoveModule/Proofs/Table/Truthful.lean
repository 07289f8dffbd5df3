import MoveModule.Proofs.Binary.Truthful
import MoveModule.Proofs.Table

/-! What is said about an entry that is refused is true. Types and instructions name the byte that
they could not make sense of, which they have read by then; everything else is put together from
readers whose errors are known to be true. -/
namespace MoveModule

open Binary

theorem Index.truthful_codec {pool : Pool} : (@Index.codec pool).Truthful :=
  Codec.truthful_index.map _ _

/-- An unknown byte is named with the place it stands at, and a missing level with the place at
which the token too much begins. Both are places in the whole input, at whatever depth they are
found. -/
theorem SignatureToken.truthful_readWithin (version : UInt32) (levels : Nat) :
    (readWithin version levels).Truthful := by
  induction levels with
  | zero => exact fun _ _ hCursor => .offset_bind (.throw hCursor.offset_le)
  | succ levels ih =>
      intro input cursor hCursor
      refine .offset_bind (.byte_bind hCursor fun tag hByte next hNext => ?_)
      cases tag using tag_cases with
      | bool | address | signer => exact .pure hNext _
      | reference | mutableReference | vector =>
          exact ih.bind (fun _ => Read.truthful_pure _) hNext
      | struct | typeParameter =>
          exact (Index.truthful_codec version).bind (fun _ => Read.truthful_pure _) hNext
      | instantiation =>
          refine (Index.truthful_codec version).bind (fun handle => ?_) hNext
          exact Read.truthful_count.bind fun count =>
            (ih.times count).bind fun _ => Read.truthful_pure _
      | other tag hOther =>
          rw [readTagged_other hOther]
          cases Width.ofTag? tag with
          | none => exact .throw hByte
          | some width => exact .gate (.pure hNext _) hCursor.offset_le

theorem SignatureToken.truthful_codec : SignatureToken.codec.Truthful :=
  fun version => truthful_readWithin version maxTokenDepth

/-- Types of constants are read as tokens are, with the vectors around them counted along. The count
has no influence on what an error says. -/
theorem ConstantType.truthful_readWithin (version : UInt32) (levels outer : Nat) :
    (readWithin version levels outer).Truthful := by
  induction levels generalizing outer with
  | zero => exact fun _ _ hCursor => .offset_bind (.throw hCursor.offset_le)
  | succ levels ih =>
      intro input cursor hCursor
      refine .offset_bind (.byte_bind hCursor fun tag hByte next hNext => ?_)
      cases tag using tag_cases with
      | bool | address => exact .pure hNext _
      | vector => exact ih (outer + 1) hNext
      | other tag hOther =>
          rw [readTagged_other hOther]
          cases Width.ofTag? tag with
          | none => exact .throw hByte
          | some width => exact .gate (.pure hNext _) hCursor.offset_le

theorem ConstantType.truthful_codec : ConstantType.codec.Truthful :=
  fun version => truthful_readWithin version maxTokenDepth 0

theorem Width.truthful_codec (width : Width) : width.codec.Truthful :=
  Codec.truthful_word width.byteCount

/-- Operands are numbers, and what can be wrong about a number is said of its own place. -/
theorem OperandKind.truthful_codec (kind : OperandKind) : kind.codec.Truthful := by
  cases kind with
  | nothing => exact fun _ => Read.truthful_pure ()
  | target | index => exact Index.truthful_codec
  | slot => exact Codec.truthful_byte
  | integer width => exact width.truthful_codec
  | items => exact Index.truthful_codec.pair Codec.truthful_uleb128

/-- An unknown opcode is named with its place. One that the version does not have is refused with
the same place, before its operand is looked at. -/
theorem Instruction.truthful_codec : Instruction.codec.Truthful := by
  intro version input cursor hCursor
  refine .offset_bind (.byte_bind hCursor fun byte hByte next hNext => ?_)
  cases Opcode.ofByte? byte with
  | none => exact .throw hByte
  | some opcode =>
      have hOperand := opcode.operand.truthful_codec version
      exact .gate (hOperand.bind (fun _ => Read.truthful_pure _) hNext) hCursor.offset_le

/-- That a text is no valid name is found when all of it has been read. The error names the place of
its length, which is in the input then. -/
theorem Identifier.truthful_codec : Identifier.codec.Truthful := by
  intro version input cursor hCursor
  refine .offset_bind ((Read.truthful_text hCursor).bind fun text next _ hNext => ?_)
  cases Identifier.ofString? text with
  | none => exact .throw hCursor.offset_le
  | some name => exact .pure hNext name

theorem AbilitySet.truthful_codec : AbilitySet.codec.Truthful :=
  Codec.truthful_tag _ _ _

/-- The flag of a type parameter is one byte, and a wrong one is named with its place. -/
theorem StructHandle.truthful_codec : StructHandle.codec.Truthful := by
  have hParameter : StructTypeParameter.codec.Truthful :=
    (AbilitySet.truthful_codec.pair (Codec.truthful_flag "phantom flag")).map _ _
  exact (Index.truthful_codec.pair (Index.truthful_codec.pair
    (AbilitySet.truthful_codec.pair hParameter.list))).map _ _

theorem FunctionHandle.truthful_codec : FunctionHandle.codec.Truthful :=
  (Index.truthful_codec.pair (Index.truthful_codec.pair (Index.truthful_codec.pair
    (Index.truthful_codec.pair AbilitySet.truthful_codec.list)))).map _ _

/-- A wrong byte in front of the fields is named before a field is read. -/
theorem StructDefinition.truthful_codec : StructDefinition.codec.Truthful := by
  have hPresence : StructFields.presence.Truthful := Codec.truthful_tag _ _ _
  have hField : FieldDefinition.codec.Truthful :=
    (Index.truthful_codec.pair SignatureToken.truthful_codec).map _ _
  have hFields : StructFields.codec.Truthful :=
    (hPresence.andThen fun present => hField.list.when present).map _ _
  exact (Index.truthful_codec.pair hFields).map _ _

/-- Visibility and flags are single bytes, each of which is named if it means nothing. The body
comes last, and is not read at all for a native function. -/
theorem FunctionDefinition.truthful_codec : FunctionDefinition.codec.Truthful := by
  have hVisibility : Visibility.codec.Truthful := Codec.truthful_tag _ _ _
  have hFlags : FunctionFlags.codec.Truthful := Codec.truthful_tag _ _ _
  have hCode : Code.codec.Truthful :=
    (Index.truthful_codec.pair Instruction.truthful_codec.list).map _ _
  exact ((Index.truthful_codec.pair (hVisibility.pair hFlags)).andThen fun head =>
    Index.truthful_codec.list.pair (hCode.when (!head.2.2.isNative))).map _ _

/-- Whatever is refused in an entry, the error says what stands in the input and where. This is what
the readers of tables need to know of an entry. -/
theorem TableKind.truthful_entryCodec (kind : TableKind) : kind.entryCodec.Truthful := by
  have hBytes := Codec.truthful_byteString
  have hIndices {first second : Pool} :
      ((@Index.codec first).pair (@Index.codec second)).Truthful :=
    Index.truthful_codec.pair Index.truthful_codec
  cases kind with
  | moduleHandles | friends | functionInstantiations | structInstantiations
  | fieldInstantiations | fieldHandles => exact hIndices.map _ _
  | structHandles => exact StructHandle.truthful_codec
  | functionHandles => exact FunctionHandle.truthful_codec
  | signatures => exact SignatureToken.truthful_codec.list
  | identifiers => exact Identifier.truthful_codec
  | addresses => exact (Codec.truthful_block 32).map _ _
  | constants => exact (ConstantType.truthful_codec.pair hBytes).map _ _
  | metadata => exact (hBytes.pair hBytes).map _ _
  | structDefinitions => exact StructDefinition.truthful_codec
  | functionDefinitions => exact FunctionDefinition.truthful_codec

end MoveModule
