import MoveModule.Table.Entry
import MoveModule.Proofs.Constant.Type
import MoveModule.Proofs.Instruction

/-! Which entries of tables can be read. Of what an entry may hold, a reader refuses
abilities that do not exist, types that are too deep and what its version does not have. -/
namespace MoveModule

open Binary

namespace AbilitySet

/-- The set has none but the four abilities. -/
def Known (set : AbilitySet) : Prop :=
  set.bits < 16

/-- A reader refuses bits beyond the four abilities, and a writer leaves them in. So a set is read
back as itself only if it has no others. -/
theorem exact_codec : codec.Exact fun _ set => set.Known := by
  refine (Codec.exact_tag "ability set" ?_).congr ?_
  · intro bits set h
    simp only [ofBits?, Option.ite_none_right_eq_some, Option.some.injEq] at h
    rw [← h.2]
  · intro _ set
    simp [ofBits?, Known]

end AbilitySet

/-- Two indices, each of which is read wherever it leads. That there is an entry behind it is left
to later checks. -/
theorem ModuleHandle.exact_codec : ModuleHandle.codec.Exact fun _ _ => True :=
  ((Index.exact_codec.pair Index.exact_codec).map (fun _ => rfl) fun _ _ _ => rfl).congr
    fun _ _ => and_self_iff

theorem FieldHandle.exact_codec : FieldHandle.codec.Exact fun _ _ => True :=
  ((Index.exact_codec.pair Index.exact_codec).map (fun _ => rfl) fun _ _ _ => rfl).congr
    fun _ _ => and_self_iff

/-- The generic entry and the signature with its arguments, both as indices that may lead
anywhere. -/
theorem Instantiation.exact_codec {pool : Pool} :
    (@Instantiation.codec pool).Exact fun _ _ => True :=
  ((Index.exact_codec.pair Index.exact_codec).map (fun _ => rfl) fun _ _ _ => rfl).congr
    fun _ _ => and_self_iff

/-- The flag behind the constraints is zero or one and nothing else, so every parameter has one row
of bytes. -/
theorem StructTypeParameter.exact_codec :
    StructTypeParameter.codec.Exact fun _ parameter => parameter.constraints.Known :=
  ((AbilitySet.exact_codec.pair (Codec.exact_flag _)).map (fun _ => rfl) fun _ _ _ => rfl).congr
    fun _ _ => iff_of_eq (and_true _)

namespace StructHandle

/-- All abilities in the handle exist. -/
def Readable (handle : StructHandle) : Prop :=
  handle.abilities.Known ∧ ∀ parameter ∈ handle.typeParameters, parameter.constraints.Known

/-- Struct handles are the same in all versions. Of their parts only the abilities can be
refused. -/
theorem exact_codec : codec.Exact fun _ handle => handle.Readable := by
  have hParameters := StructTypeParameter.exact_codec.list fun _ => List.cons_ne_nil _ _
  refine ((Index.exact_codec.pair (Index.exact_codec.pair
    (AbilitySet.exact_codec.pair hParameters))).map (fun _ => rfl) fun _ _ _ => rfl).congr
    fun _ handle => ?_
  simp [Readable]

end StructHandle

namespace FunctionHandle

/-- All abilities in the handle exist. -/
def Readable (handle : FunctionHandle) : Prop :=
  ∀ set ∈ handle.typeParameters, set.Known

/-- A function handle names its signatures by indices, so that no types are looked into here and
only the constraints of type parameters can be refused. -/
theorem exact_codec : codec.Exact fun _ handle => handle.Readable := by
  have hSets := AbilitySet.exact_codec.list fun _ => List.cons_ne_nil _ _
  refine ((Index.exact_codec.pair (Index.exact_codec.pair (Index.exact_codec.pair
    (Index.exact_codec.pair hSets)))).map (fun _ => rfl) fun _ _ _ => rfl).congr
    fun _ handle => ?_
  simp [Readable]

end FunctionHandle

/-- The name of a field is an index, and its type is read as in a signature, with the same limit on
the depth. -/
theorem FieldDefinition.exact_codec :
    FieldDefinition.codec.Exact fun version field => field.type.Readable version :=
  ((Index.exact_codec.pair SignatureToken.exact_codec).map (fun _ => rfl) fun _ _ _ => rfl).congr
    fun _ _ => iff_of_eq (true_and _)

/-- A field takes a byte at least, which bounds how many of them can be counted. -/
theorem FieldDefinition.write_ne_nil (field : FieldDefinition) :
    FieldDefinition.codec.write field ≠ [] :=
  List.append_ne_nil_of_left_ne_nil (Index.write_ne_nil field.name) _

namespace StructFields

/-- Two bytes say whether a struct has fields, and no other byte is taken for either. -/
theorem exact_presence : presence.Exact fun _ _ => True := by
  refine (Codec.exact_tag "struct field information" ?_).congr ?_
  · intro byte present h
    grind
  · intro _ present
    cases present <;> simp

/-- Fields follow only where the byte in front of them announces them, which a writer takes from the
struct. -/
theorem exact_codec :
    codec.Exact fun version fields => ∀ field ∈ fields.toList, field.type.Readable version := by
  have hFields (present : Bool) :=
    (FieldDefinition.exact_codec.list FieldDefinition.write_ne_nil).when present
  refine ((exact_presence.andThen hFields).map ?_ ?_).congr ?_
  · intro fields
    cases fields <;> rfl
  · intro _ parts hParts
    rcases parts with ⟨present, fields⟩
    rcases hParts with ⟨_, hPresent, _⟩
    obtain rfl : fields.isSome = present := hPresent
    cases fields <;> rfl
  · intro version fields
    cases fields <;> simp [declared?, toList]

end StructFields

namespace StructDefinition

/-- A reader for the version takes the types of all fields. -/
def Readable (definition : StructDefinition) (version : UInt32) : Prop :=
  ∀ field ∈ definition.fields.toList, field.type.Readable version

/-- The types of the fields are all that a version may refuse in a definition. -/
theorem exact_codec : codec.Exact fun version definition => definition.Readable version :=
  ((Index.exact_codec.pair StructFields.exact_codec).map (fun _ => rfl) fun _ _ _ => rfl).congr
    fun _ _ => iff_of_eq (true_and _)

end StructDefinition

/-- The third visibility has the byte 3. The byte 2 is left out, and is refused as all others
are. -/
theorem Visibility.exact_codec : Visibility.codec.Exact fun _ _ => True := by
  refine (Codec.exact_tag "visibility" ?_).congr ?_
  · intro byte visibility h
    simpa using List.find?_some h
  · intro _ visibility
    cases visibility <;> simp [all, byte]

/-- A byte of flags with any other bit set is refused, so flags and bytes fit together one to one.
The 256 bytes are gone through. -/
theorem FunctionFlags.exact_codec : FunctionFlags.codec.Exact fun _ _ => True := by
  refine (Codec.exact_tag "function flags" ?_).congr ?_
  · have hAll : ∀ n : Fin 256, ∀ flags ∈ ofByte? (UInt8.ofFin n), flags.byte = UInt8.ofFin n := by
      decide +kernel
    intro source flags h
    exact hAll source.toFin flags h
  · intro _ flags
    rcases flags with ⟨isNative, isEntry⟩
    cases isNative <;> cases isEntry <;> decide

/-- A body can be read if all its instructions can. Its locals are only an index here. -/
theorem Code.exact_codec : Code.codec.Exact fun version code =>
    ∀ instruction ∈ code.instructions, instruction.Readable version :=
  ((Index.exact_codec.pair (Instruction.exact_codec.list Instruction.write_ne_nil)).map
    (fun _ => rfl) fun _ _ _ => rfl).congr fun _ _ => iff_of_eq (true_and _)

namespace FunctionDefinition

/-- A reader for the version takes all instructions of the body. -/
def Readable (definition : FunctionDefinition) (version : UInt32) : Prop :=
  ∀ code ∈ definition.code, ∀ instruction ∈ code.instructions, instruction.Readable version

/-- The flag of native functions and the body have to fit together: where the flag is set no body is
read, and none has been written. -/
theorem exact_codec : codec.Exact fun version definition => definition.Readable version := by
  have hHead := Visibility.exact_codec.pair FunctionFlags.exact_codec
  have hCode (native : Bool) := Code.exact_codec.when (!native)
  refine (((Index.exact_codec.pair hHead).andThen fun head =>
    (Index.exact_codec.list Index.write_ne_nil).pair (hCode head.2.2.isNative)).map
    (fun _ => rfl) ?_).congr ?_
  · intro _ parts hParts
    rcases parts with ⟨⟨handle, visibility, isNative, isEntry⟩, acquires, code⟩
    rcases hParts with ⟨_, _, hCode, _⟩
    cases code <;> cases isNative <;> simp_all [flags, FunctionDefinition.isNative]
  · intro version definition
    cases hCode : definition.code <;> simp [Readable, flags, FunctionDefinition.isNative, hCode]

end FunctionDefinition

/-- A valid name is made from its own text and from no other. -/
theorem Identifier.ofString?_eq_some {text : String} {identifier : Identifier} :
    ofString? text = some identifier ↔ text = identifier.text := by
  obtain ⟨name, hName⟩ := identifier
  grind [ofString?]

/-- A name is read from text that is valid UTF-8 and a valid name. Both hold of every name in a
table, and the text determines the name. -/
theorem Identifier.exact_codec : Identifier.codec.Exact fun _ _ => True := by
  have hRead {version : UInt32} {cursor next : Cursor} {identifier : Identifier} :
      Identifier.codec.read version cursor = .ok identifier next ↔
        Read.text cursor = .ok identifier.text next := by
    simp only [codec, Read.bind_eq_ok, Read.offset_eq_ok]
    constructor
    · intro hResult
      rcases hResult with ⟨_, _, ⟨rfl, rfl⟩, text, _, hText, hName⟩
      cases hGiven : ofString? text with
      | none => simp [hGiven] at hName
      | some given =>
          simp only [hGiven, Read.pure_eq_ok] at hName
          obtain ⟨rfl, rfl⟩ := hName
          rwa [← ofString?_eq_some.mp hGiven]
    · intro hText
      refine ⟨_, _, ⟨rfl, rfl⟩, identifier.text, next, hText, ?_⟩
      rw [ofString?_eq_some.mpr rfl]
      exact Read.pure_eq_ok.mpr ⟨rfl, rfl⟩
  intro version
  apply Read.Exact.mk
  · intro cursor next identifier h
    exact (Codec.exact_byteString version).sound (Read.text_eq_ok.mp (hRead.mp h))
  · intro cursor identifier hAdmits hSize hPrefix
    have hBytes := (Codec.exact_byteString version).complete hAdmits hSize hPrefix
    exact hRead.mpr (Read.text_eq_ok.mpr hBytes)

theorem Address.exact_codec : Address.codec.Exact fun _ _ => True :=
  (Codec.exact_block 32).map (fun _ => rfl) fun _ _ _ => rfl

theorem Metadata.exact_codec : Metadata.codec.Exact fun _ _ => True :=
  ((Codec.exact_byteString.pair Codec.exact_byteString).map (fun _ => rfl) fun _ _ _ => rfl).congr
    fun _ _ => and_self_iff

/-- The value of a constant is any row of bytes with its length in front. Whether it is one of its
type is not asked in reading. -/
theorem Constant.exact_codec :
    Constant.codec.Exact fun version constant => constant.type.Readable version :=
  ((ConstantType.exact_codec.pair Codec.exact_byteString).map (fun _ => rfl)
    fun _ _ _ => rfl).congr fun _ _ => iff_of_eq (and_true _)

namespace TableKind

/-- A reader for the version takes the entry. -/
def EntryReadable : (kind : TableKind) → kind.Entry → UInt32 → Prop
  | structHandles, (handle : StructHandle), _ => handle.Readable
  | functionHandles, (handle : FunctionHandle), _ => handle.Readable
  | signatures, (signature : Signature), version => ∀ token ∈ signature, token.Readable version
  | constants, (constant : Constant), version => constant.type.Readable version
  | structDefinitions, (definition : StructDefinition), version => definition.Readable version
  | functionDefinitions, (definition : FunctionDefinition), version => definition.Readable version
  | _, _, _ => True

/-- Every entry is read from its own bytes and from no others. What a reader refuses is collected in
the condition on entries of each table. -/
theorem exact_entryCodec (kind : TableKind) :
    kind.entryCodec.Exact fun version entry => kind.EntryReadable entry version := by
  cases kind with
  | moduleHandles => exact ModuleHandle.exact_codec
  | structHandles => exact StructHandle.exact_codec
  | functionHandles => exact FunctionHandle.exact_codec
  | functionInstantiations => exact Instantiation.exact_codec
  | signatures => exact Signature.exact_codec
  | identifiers => exact Identifier.exact_codec
  | addresses => exact Address.exact_codec
  | constants => exact Constant.exact_codec
  | metadata => exact Metadata.exact_codec
  | structDefinitions => exact StructDefinition.exact_codec
  | structInstantiations => exact Instantiation.exact_codec
  | functionDefinitions => exact FunctionDefinition.exact_codec
  | fieldHandles => exact FieldHandle.exact_codec
  | fieldInstantiations => exact Instantiation.exact_codec
  | friends => exact ModuleHandle.exact_codec

/-- An entry takes a byte or more, so that a table holds no more entries than bytes. -/
theorem write_entry_ne_nil (kind : TableKind) (entry : kind.Entry) :
    kind.entryCodec.write entry ≠ [] := by
  have hIndex {pool : Pool} (index : Index pool) (rest : List UInt8) :
      Index.codec.write index ++ rest ≠ [] :=
    List.append_ne_nil_of_left_ne_nil (Index.write_ne_nil index) rest
  have hLength (n : Nat) (rest : List UInt8) : Uleb128.encode n ++ rest ≠ [] :=
    List.append_ne_nil_of_left_ne_nil (List.length_pos_iff.mp (Uleb128.length_encode_pos n)) rest
  cases kind with
  | signatures => exact hLength _ _
  | identifiers => exact hLength _ _
  | addresses =>
      obtain ⟨bytes, hBytes⟩ := entry
      change bytes ≠ []
      intro hSame
      subst hSame
      simp at hBytes
  | constants =>
      exact List.append_ne_nil_of_left_ne_nil (ConstantType.write_ne_nil entry.type) _
  | metadata =>
      exact List.append_ne_nil_of_left_ne_nil (hLength entry.key.length entry.key) _
  | functionDefinitions => exact List.append_ne_nil_of_left_ne_nil (hIndex entry.handle _) _
  | _ => exact hIndex _ _

end TableKind

end MoveModule
