import MoveModule.Proofs.Json.Form
import MoveModule.Proofs.Text.Hex
import MoveModule.Table.Entry

/-! The entries of all tables as documents. Each form is exact: an entry is read back as itself
unless its document is nested too deep, which only an entry with a type in it can be. -/
namespace MoveModule

open Json

/-- Bytes are shown as hexadecimal digits, of which every row that was shown decodes to the bytes
again. -/
theorem Json.Form.exact_hex : Form.hex.Exact :=
  Form.exact_text.filterMap fun source => by rw [Text.Hex.decode_encoded]; rfl

theorem Block.ofBytes?_val {count : Nat} (block : Block count) :
    Block.ofBytes? block.val = some block := by
  simp [Block.ofBytes?, block.property]

/-- A row of fixed length is shown as its digits alone. Its length is checked when it is read, which
what was shown passes. -/
theorem Json.Form.exact_block (count : Nat) : (Form.block count).Exact :=
  Form.exact_hex.filterMap Block.ofBytes?_val

theorem Address.exact_form : Address.form.Exact :=
  (Form.exact_block 32).map fun _ => rfl

/-- The number of a set is shown, so that bits beyond the four abilities come back with it. -/
theorem AbilitySet.exact_form : AbilitySet.form.Exact :=
  Form.exact_uint8.map fun _ => rfl

theorem Index.exact_form {pool : Pool} : (@Index.form pool).Exact :=
  Form.exact_uint16.map fun _ => rfl

/-- An index opens no array and no object, and leaves all levels to what stands beside it. -/
theorem Index.nesting_write {pool : Pool} (index : Index pool) :
    (Index.form.write index).nesting = 0 := rfl

namespace Width

/-- Integers up to 128 bits are numbers in a document. One of 256 bits is the array of its 32 bytes,
which takes a level. -/
theorem exact_form (width : Width) : width.form.Exact := by
  cases width with
  | w256 =>
      refine Form.exact_uint8.list.filterMap fun value => ?_
      rw [if_pos (Binary.LittleEndian.length_encode 32 value.toNat)]
      have hValue := Binary.LittleEndian.ofNat_value_encode 32 value.toNat
      exact congrArg some (hValue.trans (BitVec.ofNat_toNat _ value |>.trans value.setWidth_eq))
  | _ => exact Form.exact_bitVec _

end Width

namespace SignatureToken

/-- The tokens inside a token are shown one by one, as any list of values is. -/
theorem toJsonAll_eq (tokens : List SignatureToken) : toJsonAll tokens = tokens.map toJson := by
  induction tokens with
  | nil => rfl
  | cons token rest ih => rw [toJsonAll, ih, List.map_cons]

/-- The names of the widths are apart from those of the other tokens without parts. -/
theorem ofName?_width (width : Width) : ofName? width.name = some (integer width) := by
  cases width <;> rfl

/-- A token that is only a name can be read with no levels left. -/
theorem ofJson?_text (levels : Nat) (name : String) :
    ofJson? levels (.text name) = ofName? name := by
  cases levels <;> rfl

/-- A generic struct takes three levels: for the object, for the pair of the handle and its
arguments, and for the array of the arguments. -/
theorem ofJson?_instantiation {levels : Nat} {handle : Json} {arguments : List Json}
    {result : SignatureToken} :
    ofJson? (levels + 3) (.variant "StructInstantiation" (.array [handle, .array arguments])) =
        some result ↔ ∃ index, Index.form.read levels handle = some index ∧
          ∃ tokens, arguments.mapM (ofJson? levels) = some tokens ∧
            instantiation index tokens = result := by
  change (Index.form.read levels handle >>= fun index =>
    arguments.mapM (ofJson? levels) >>= fun tokens => some (instantiation index tokens)) = _ ↔ _
  simp only [Option.bind_eq_bind, Option.bind_eq_some_iff, Option.some.injEq]

mutual

/-- What a token is written as denotes something in every depth: names are texts, and indices are
natural numbers. -/
theorem plain_toJson : ∀ token : SignatureToken, token.toJson.Plain
  | bool | integer _ | address | signer => .text _
  | vector item => (plain_toJson item).variant "Vector"
  | struct handle => (Index.exact_form.plain handle).variant "Struct"
  | instantiation handle arguments => by
      refine Plain.variant (.array ?_) "StructInstantiation"
      rw [List.forall_mem_cons, List.forall_mem_singleton]
      exact ⟨Index.exact_form.plain handle, .array (plain_toJsonAll arguments)⟩
  | reference target => (plain_toJson target).variant "Reference"
  | mutableReference target => (plain_toJson target).variant "MutableReference"
  | typeParameter index => (Index.exact_form.plain index).variant "TypeParameter"

theorem plain_toJsonAll : ∀ tokens : List SignatureToken,
    ∀ document ∈ toJsonAll tokens, document.Plain
  | [] => List.forall_mem_nil _
  | token :: rest => List.forall_mem_cons.mpr ⟨plain_toJson token, plain_toJsonAll rest⟩

end

/-- A token is read back as itself exactly when the levels are enough for its document. The
induction is on the levels, since a generic struct uses three of them at once. -/
theorem ofJson?_toJson {levels : Nat} {token result : SignatureToken} :
    ofJson? levels token.toJson = some result ↔
      token.toJson.nesting ≤ levels ∧ token = result := by
  induction levels using Nat.strongRecOn generalizing token result with
  | ind levels ih =>
      cases token with
      | bool | address | signer =>
          rw [toJson, ofJson?_text, nesting_text]
          simp [ofName?]
      | integer width =>
          rw [toJson, ofJson?_text, nesting_text, ofName?_width]
          simp
      | vector item | reference target | mutableReference target =>
          rw [toJson, nesting_variant]
          cases levels with
          | zero => simp [ofJson?, variant]
          | succ levels =>
              have hPart {token result : SignatureToken} :=
                @ih levels (Nat.lt_succ_self levels) token result
              rw [Nat.add_le_add_iff_right]
              exact map_eq_some_of_exact hPart _
      | struct handle | typeParameter index =>
          rw [toJson, nesting_variant]
          cases levels with
          | zero => simp [ofJson?, variant]
          | succ levels =>
              rw [Nat.add_le_add_iff_right]
              exact map_eq_some_of_exact Index.exact_form.read_write _
      | instantiation handle arguments =>
          rw [toJson, nesting_variant, toJsonAll_eq]
          rcases levels with _ | _ | _ | levels
          · simp [ofJson?, variant]
          · simp [ofJson?, variant, nesting, itemsNesting, Index.nesting_write]
          · simp [ofJson?, variant, nesting, itemsNesting, Index.nesting_write]
          · have hArguments := @mapM_map_eq_some _ toJson (ofJson? levels) levels
              (@ih levels (by omega)) arguments
            simp only [ofJson?_instantiation, Index.exact_form.read_write, hArguments, nesting,
              itemsNesting, Index.nesting_write]
            constructor
            · intro hRead
              obtain ⟨_, ⟨-, rfl⟩, _, ⟨hArguments, rfl⟩, hResult⟩ := hRead
              exact ⟨by omega, hResult⟩
            · intro hRead
              obtain ⟨hLevels, hResult⟩ := hRead
              exact ⟨_, ⟨Nat.zero_le levels, rfl⟩, _, ⟨by omega, rfl⟩, hResult⟩

/-- Types in signatures may be nested deeper than a document, so that for them the condition on
levels can fail. -/
theorem exact_form : SignatureToken.form.Exact where
  plain := plain_toJson
  read_write := ofJson?_toJson

end SignatureToken

theorem Signature.exact_form : Signature.form.Exact :=
  SignatureToken.exact_form.list

namespace ConstantType

theorem ofName?_width (width : Width) : ofName? width.name = some (integer width) := by
  cases width <;> rfl

theorem ofJson?_text (levels : Nat) (name : String) :
    ofJson? levels (.text name) = ofName? name := by
  cases levels <;> rfl

/-- A type of constants is read back as itself exactly when each vector around it has a level
left. -/
theorem ofJson?_toJson {levels : Nat} {type result : ConstantType} :
    ofJson? levels type.toJson = some result ↔ type.toJson.nesting ≤ levels ∧ type = result := by
  induction type generalizing levels result with
  | bool | address =>
      rw [toJson, ofJson?_text, nesting_text]
      simp [ofName?]
  | integer width =>
      rw [toJson, ofJson?_text, nesting_text, ofName?_width]
      simp
  | vector item ih =>
      rw [toJson, nesting_variant]
      cases levels with
      | zero => simp [ofJson?, variant]
      | succ levels =>
          rw [Nat.add_le_add_iff_right]
          exact map_eq_some_of_exact ih _

/-- Types of constants, in which only vectors take levels. -/
theorem exact_form : ConstantType.form.Exact where
  plain type := by
    induction type with
    | bool | integer | address => exact .text _
    | vector item ih => exact ih.variant "Vector"
  read_write := ofJson?_toJson

end ConstantType

/-- The value of a constant is shown as its bytes, whether or not they are a value of its type. -/
theorem Constant.exact_form : Constant.form.Exact :=
  (((Fields.exact_required ConstantType.exact_form "type_tag").and
    (Fields.exact_required Form.exact_hex "value")).form (by decide)).map fun _ => rfl

/-- Only valid names are in a table, so the check that a name from a document has to pass succeeds
on them. -/
theorem Identifier.exact_form : Identifier.form.Exact :=
  Form.exact_text.filterMap fun name => dif_pos name.valid

namespace OperandKind

/-- An operand that says nothing is shown as nothing. No operand is nested deeper than the array of
a pair or of 32 bytes. -/
theorem exact_form (kind : OperandKind) : kind.form.Exact := by
  cases kind with
  | nothing =>
      refine ⟨fun _ => .null, fun {levels value result} => ?_⟩
      exact ⟨fun _ => ⟨Nat.zero_le levels, rfl⟩, fun _ => rfl⟩
  | target | index => exact Index.exact_form
  | slot => exact Form.exact_uint8
  | integer width => exact width.exact_form
  | items => exact Index.exact_form.pair Form.exact_uint64

end OperandKind

/-- No two opcodes have the same name. -/
theorem Opcode.ofName?_name (opcode : Opcode) : ofName? opcode.name = some opcode := by
  cases opcode <;> rfl

namespace Instruction

/-- An instruction without an operand is the name of its opcode. -/
theorem toJson_of_nothing {instruction : Instruction}
    (h : instruction.opcode.operand = .nothing) :
    instruction.toJson = .text instruction.opcode.name := by
  rw [toJson]
  split
  · rfl
  · contradiction

/-- Every other instruction is an object with the opcode as its only name and the operand as the
value. -/
theorem toJson_of_ne_nothing {instruction : Instruction}
    (h : instruction.opcode.operand ≠ .nothing) :
    instruction.toJson = .variant instruction.opcode.name
      (instruction.opcode.operand.form.write instruction.operand) := by
  rw [toJson]
  split
  · contradiction
  · rfl

/-- Where an operand says nothing, there is one value that it can have. -/
theorem cast_unit_eq {kind : OperandKind} (h : kind = .nothing) (operand : kind.Value) :
    (h ▸ () : kind.Value) = operand := by
  subst h
  rfl

theorem ofJson?_text {instruction : Instruction} (h : instruction.opcode.operand = .nothing)
    (levels : Nat) : ofJson? levels (.text instruction.opcode.name) = some instruction := by
  simp only [ofJson?, Json.text, Opcode.ofName?_name, Option.bind_eq_bind, Option.bind_some]
  split
  · rw [cast_unit_eq h instruction.operand]
  · contradiction

/-- Behind the name of an opcode stands an operand of that opcode. It is read with a level less. -/
theorem ofJson?_variant (levels : Nat) (opcode : Opcode) (payload : Json) :
    ofJson? (levels + 1) (.variant opcode.name payload) =
      (opcode.operand.form.read levels payload).map (Instruction.mk opcode) := by
  simp only [ofJson?, Json.variant, Opcode.ofName?_name, Option.bind_eq_bind, Option.bind_some,
    Option.pure_def, Option.map_eq_bind, Function.comp_def]

/-- Instructions come back with their operands, whether or not the version of the module has the
opcode. -/
theorem exact_form : Instruction.form.Exact where
  plain instruction := by
    change instruction.toJson.Plain
    by_cases hKind : instruction.opcode.operand = .nothing
    · rw [toJson_of_nothing hKind]
      exact .text _
    · rw [toJson_of_ne_nothing hKind]
      exact ((OperandKind.exact_form _).plain _).variant _
  read_write := by
    intro levels instruction result
    change ofJson? levels instruction.toJson = some result ↔
      instruction.toJson.nesting ≤ levels ∧ instruction = result
    by_cases hKind : instruction.opcode.operand = .nothing
    · rw [toJson_of_nothing hKind, nesting_text, ofJson?_text hKind]
      simp
    · rw [toJson_of_ne_nothing hKind, nesting_variant]
      cases levels with
      | zero => simp [ofJson?, variant]
      | succ levels =>
          rw [ofJson?_variant, Nat.add_le_add_iff_right]
          exact map_eq_some_of_exact (OperandKind.exact_form _).read_write _

end Instruction

/-! Records have the fields of their declarations, each in a form of its own. -/

theorem ModuleHandle.exact_form : ModuleHandle.form.Exact :=
  (((Fields.exact_required Index.exact_form "address").and
    (Fields.exact_required Index.exact_form "name")).form (by decide)).map fun _ => rfl

theorem StructTypeParameter.exact_form : StructTypeParameter.form.Exact :=
  (((Fields.exact_required AbilitySet.exact_form "constraints").and
    (Fields.exact_required Form.exact_bool "is_phantom")).form (by decide)).map fun _ => rfl

/-- Abilities and type parameters of a struct come back in their order. -/
theorem StructHandle.exact_form : StructHandle.form.Exact :=
  (((Fields.exact_required Index.exact_form "module").and
    ((Fields.exact_required Index.exact_form "name").and
    ((Fields.exact_required AbilitySet.exact_form "abilities").and
    (Fields.exact_required StructTypeParameter.exact_form.list "type_parameters")))).form
      (by decide)).map fun _ => rfl

/-- The constraints of type parameters are shown as numbers, and the signatures by their indices. -/
theorem FunctionHandle.exact_form : FunctionHandle.form.Exact :=
  (((Fields.exact_required Index.exact_form "module").and
    ((Fields.exact_required Index.exact_form "name").and
    ((Fields.exact_required Index.exact_form "parameters").and
    ((Fields.exact_required Index.exact_form "return").and
    (Fields.exact_required AbilitySet.exact_form.list "type_parameters"))))).form
      (by decide)).map fun _ => rfl

theorem FieldHandle.exact_form : FieldHandle.form.Exact :=
  (((Fields.exact_required Index.exact_form "owner").and
    (Fields.exact_required Index.exact_form "field")).form (by decide)).map fun _ => rfl

/-- The three tables of instantiations share one form, whatever table the generic entry is in. -/
theorem Instantiation.exact_form {pool : Pool} : (@Instantiation.form pool).Exact :=
  (((Fields.exact_required Index.exact_form "handle").and
    (Fields.exact_required Index.exact_form "type_parameters")).form
      (show ["handle", "type_parameters"].Nodup by decide)).map fun _ => rfl

theorem Metadata.exact_form : Metadata.form.Exact :=
  (((Fields.exact_required Form.exact_hex "key").and
    (Fields.exact_required Form.exact_hex "value")).form (by decide)).map fun _ => rfl

/-- A field is as deep as its type, with the level of its own object more. -/
theorem FieldDefinition.exact_form : FieldDefinition.form.Exact :=
  (((Fields.exact_required Index.exact_form "name").and
    (Fields.exact_required SignatureToken.exact_form "signature")).form (by decide)).map
      fun _ => rfl

/-- A native struct is shown as a name and one with fields as an object, so that a struct with an
empty list of fields stays apart from a native one. -/
theorem StructFields.exact_form : StructFields.form.Exact where
  plain fields := by
    cases fields with
    | native => exact .text _
    | declared fields => exact (FieldDefinition.exact_form.list.plain fields).variant "Declared"
  read_write := by
    intro levels fields result
    cases fields with
    | native =>
        change ofJson? levels (.text "Native") = some result ↔
          (Json.text "Native").nesting ≤ levels ∧ _
        simp [ofJson?, Json.text, nesting]
    | declared fields =>
        have hFields := FieldDefinition.exact_form.list
        change ofJson? levels (.variant "Declared" (FieldDefinition.form.list.write fields)) =
          some result ↔ (Json.variant "Declared" _).nesting ≤ levels ∧ declared fields = result
        rw [nesting_variant]
        cases levels with
        | zero => simp [ofJson?, variant]
        | succ levels =>
            rw [Nat.add_le_add_iff_right]
            exact map_eq_some_of_exact hFields.read_write declared

/-- Of a definition the fields decide how many levels it takes. -/
theorem StructDefinition.exact_form : StructDefinition.form.Exact :=
  (((Fields.exact_required Index.exact_form "struct_handle").and
    (Fields.exact_required StructFields.exact_form "field_information")).form (by decide)).map
      fun _ => rfl

/-- Each visibility has a name of its own. -/
theorem Visibility.exact_form : Visibility.form.Exact :=
  Form.exact_name fun visibility => by cases visibility <;> rfl

/-- A body is shown as the index of its locals and the list of its instructions. -/
theorem Code.exact_form : Code.form.Exact :=
  (((Fields.exact_required Index.exact_form "locals").and
    (Fields.exact_required Instruction.exact_form.list "code")).form (by decide)).map fun _ => rfl

/-- The body of a native function is shown as nothing. No body is shown so itself, which is why the
two can be told apart when they are read. -/
theorem FunctionDefinition.exact_form : FunctionDefinition.form.Exact :=
  (((Fields.exact_required Index.exact_form "function").and
    ((Fields.exact_required Visibility.exact_form "visibility").and
    ((Fields.exact_required Form.exact_bool "is_entry").and
    ((Fields.exact_required Index.exact_form.list "acquires_global_resources").and
    (Fields.exact_optional Code.exact_form (fun _ => Json.noConfusion) "code"))))).form
      (by decide)).map fun _ => rfl

theorem TableKind.exact_form : TableKind.form.Exact :=
  Form.exact_name fun kind => by cases kind <;> rfl

/-- All entries of all tables are read back as themselves when the levels are enough. This includes
entries that no reader of files would take. -/
theorem TableKind.exact_entryForm (kind : TableKind) : kind.entryForm.Exact := by
  cases kind with
  | moduleHandles | friends => exact ModuleHandle.exact_form
  | structHandles => exact StructHandle.exact_form
  | functionHandles => exact FunctionHandle.exact_form
  | fieldHandles => exact FieldHandle.exact_form
  | functionInstantiations | structInstantiations | fieldInstantiations =>
      exact Instantiation.exact_form
  | signatures => exact Signature.exact_form
  | identifiers => exact Identifier.exact_form
  | addresses => exact Address.exact_form
  | constants => exact Constant.exact_form
  | metadata => exact Metadata.exact_form
  | structDefinitions => exact StructDefinition.exact_form
  | functionDefinitions => exact FunctionDefinition.exact_form

end MoveModule
