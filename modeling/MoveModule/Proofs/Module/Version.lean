import MoveModule.Proofs.Module.Decode
import MoveModule.Proofs.Table.Gated

/-! Files that differ in nothing but the version. The directory and the tables lie in the same
places, and their entries have the same bytes. So an older reader goes through the file of a newer
module until it meets an integer or an opcode that its version does not have, and finds nothing
else wrong. -/
namespace MoveModule

open Binary

/-- The file with another version in its second four bytes. -/
def withVersionWord (bytes : List UInt8) (version : UInt32) : List UInt8 :=
  bytes.take 4 ++ (LittleEndian.encode 4 version.toNat ++ bytes.drop 8)

/-- The widths of integers that came with version 6. -/
def Width.allNew : List Width :=
  [.w16, .w32, .w256]

theorem Width.allowedIn_six (width : Width) : width.allowedIn 6 = true := by
  cases width <;> rfl

/-- Version 5 has all widths but the three that came with version 6. -/
theorem Width.allowedIn_five_iff {width : Width} : width.allowedIn 5 = true ↔ width ∉ allNew := by
  cases width <;> decide

/-- The opcodes that came with version 6. -/
def Opcode.allNew : List Opcode :=
  [.ldU16, .ldU32, .ldU256, .castU16, .castU32, .castU256]

/-- Version 6 has all opcodes. -/
theorem Opcode.allowedIn_six (opcode : Opcode) : opcode.allowedIn 6 = true := by
  cases opcode <;> rfl

/-- Version 5 has all opcodes but those that came with version 6. All of them are gone through. -/
theorem Opcode.allowedIn_five_iff {opcode : Opcode} :
    opcode.allowedIn 5 = true ↔ opcode ∉ allNew := by
  cases opcode <;> decide

namespace SignatureToken.Readable

variable {token : SignatureToken} {version : UInt32} (h : token.Readable version)

include h

theorem six : token.Readable 6 :=
  ⟨h.1, fun width _ => width.allowedIn_six⟩

/-- A type can be read in version 5 if no integer anywhere in it has one of the new widths. -/
theorem five_iff : token.Readable 5 ↔ ∀ width ∈ Width.allNew, .integer width ∉ token.nodes := by
  constructor
  · intro hFive width hNew hToken
    exact Width.allowedIn_five_iff.mp (hFive.2 width hToken) hNew
  · intro hNone
    exact ⟨h.1, fun width hToken =>
      Width.allowedIn_five_iff.mpr fun hNew => hNone width hNew hToken⟩

end SignatureToken.Readable

namespace Module

/-- The module as one of another version. -/
def atVersion (module : Module) (version : UInt32) : Module :=
  { module with version := version }

section

variable (module : Module) (version : UInt32)

theorem entries_atVersion (kind : TableKind) :
    (module.atVersion version).entries kind = module.entries kind := by
  cases kind <;> rfl

theorem fill_atVersion (kind : TableKind) (entries : Array kind.Entry) :
    (module.atVersion version).fill kind entries =
      (module.fill kind entries).atVersion version := by
  cases kind <;> rfl

/-- The bytes of a table are the same in all versions, since no writer looks at the version. -/
theorem body_atVersion (kind : TableKind) :
    (module.atVersion version).body kind = module.body kind := by
  rw [body, body, entries_atVersion]

theorem emissionOrder_atVersion : (module.atVersion version).emissionOrder = module.emissionOrder :=
  emissionOrder_congr rfl fun kind => congrArg Array.size (module.entries_atVersion version kind)

/-- Tables of the same bytes are at the same places. -/
theorem extentsFrom_atVersion (start : Nat) (kinds : List TableKind) :
    (module.atVersion version).extentsFrom start kinds = module.extentsFrom start kinds := by
  induction kinds generalizing start with
  | nil => rfl
  | cons kind rest ih => rw [extentsFrom, extentsFrom, body_atVersion, ih]

theorem extents_atVersion : (module.atVersion version).extents = module.extents := by
  rw [extents, extents, emissionOrder_atVersion, extentsFrom_atVersion]

theorem directory_atVersion : (module.atVersion version).directory = module.directory := by
  rw [directory, directory, extents_atVersion]

theorem contents_atVersion : (module.atVersion version).contents = module.contents := by
  have hBody : (module.atVersion version).body = module.body :=
    funext fun kind => module.body_atVersion version kind
  rw [contents, contents, emissionOrder_atVersion, hBody]
  rfl

/-- A module of another version is written as the same bytes with another word in the header. -/
theorem encode_atVersion :
    (module.atVersion version).encode = withVersionWord module.encode version := by
  have hFront : module.encode.take 4 = module.magic.val := by
    rw [encode_eq, header, List.append_assoc, List.take_left' module.magic.property]
  have hBehind : module.encode.drop 8 = module.directory ++ module.contents := by
    rw [encode_eq, List.drop_left' module.length_header]
  rw [withVersionWord, hFront, hBehind, encode_eq, directory_atVersion, contents_atVersion, header,
    List.append_assoc]
  rfl

end

/-- The input has something that the version does not have. -/
def RefusesVersion {α : Type} (read : ReadModule α) (version : UInt32) (cursor : Cursor) : Prop :=
  ∃ what place stop,
    read cursor = .error (.decode (.unsupportedInVersion what version place)) stop

/-- Once the version is the reason to stop, it stays the reason. -/
theorem RefusesVersion.bind {α β : Type} {first : ReadModule α} {version : UInt32}
    {cursor : Cursor} (h : RefusesVersion first version cursor) (second : α → ReadModule β) :
    RefusesVersion (first >>= second) version cursor := by
  obtain ⟨what, place, stop, hFirst⟩ := h
  exact ⟨what, place, stop, Read.bind_of_eq_error hFirst⟩

section

variable {contents : Nat} {module result : Module} {extent : Extent} {cursor next : Cursor}
  (version : UInt32)

/-- The table of a module of another version has the same entries or is refused. -/
theorem readTable_atVersion (h : readTable contents module extent cursor = .ok result next) :
    readTable contents (module.atVersion version) extent cursor =
        .ok (result.atVersion version) next ∨
      RefusesVersion (readTable contents (module.atVersion version) extent) version cursor := by
  have hFollows := (extent.kind.gated_entryCodec version module.version).every
  obtain ⟨hInside, entries, stop, hRead, rfl, rfl⟩ := readTable_eq_ok_iff_every.mp h
  rcases hFollows hRead with hSame | ⟨what, place, stop, hStop⟩
  · rw [← fill_atVersion]
    exact .inl (readTable_eq_ok_iff_every.mpr ⟨hInside, entries, stop, hSame, rfl, rfl⟩)
  · exact .inr ⟨what, place, _, readTable_of_every_eq_error hInside hStop⟩

/-- The first table that is refused ends the reading, and those before it are the same. -/
theorem foldlM_readTable_atVersion {extents : List Extent}
    (h : extents.foldlM (readTable contents) module cursor = .ok result next) :
    extents.foldlM (readTable contents) (module.atVersion version) cursor =
        .ok (result.atVersion version) next ∨
      RefusesVersion (extents.foldlM (readTable contents) (module.atVersion version)) version
        cursor := by
  induction extents generalizing module cursor with
  | nil =>
      obtain ⟨rfl, rfl⟩ := Read.pure_eq_ok.mp h
      exact .inl rfl
  | cons extent extents ih =>
      rw [List.foldlM_cons, Read.bind_eq_ok] at h
      obtain ⟨filled, middle, hFirst, hRest⟩ := h
      rw [List.foldlM_cons]
      rcases readTable_atVersion version hFirst with hSame | hRefuses
      · rw [RefusesVersion, Read.bind_of_eq_ok hSame]
        exact ih hRest
      · exact .inr (hRefuses.bind _)

end

/-- The reader of another version goes through the file of a module as its own reader does. It
gives the module or stops at something that the version does not have. -/
theorem read_encode_atVersion {module : Module} {version : UInt32} (hCanonical : module.Canonical)
    (hVersion : isSupported version = true) :
    (∃ next, read (Cursor.ofBytes (module.atVersion version).encode) =
      .ok (module.atVersion version) next) ∨
      RefusesVersion read version (Cursor.ofBytes (module.atVersion version).encode) := by
  have hPrefix : module.magic.val ++ LittleEndian.encode 4 version.toNat ++
      (module.directory ++ module.contents) <+: (module.atVersion version).encode := by
    rw [encode_eq, directory_atVersion, contents_atVersion]
    exact List.prefix_refl _
  obtain ⟨start, next, hPlace, hTables, -, hRest, hRead, hStop⟩ :=
    read_of_readTable hCanonical hVersion hPrefix
  obtain ⟨result, hTablesRead, hModule⟩ := foldlM_readTable_of_isPrefix hCanonical hPlace hTables
  rcases foldlM_readTable_atVersion version hTablesRead with hSame | hRefuses
  · have hLength : (module.atVersion version).encode.length =
        8 + (module.directory ++ module.contents).length := by
      rw [encode_eq, List.length_append, length_header, directory_atVersion, contents_atVersion]
    have hEnd : ¬ next.hasMore = true := by
      rw [Cursor.hasMore_iff, hRest, ← hLength, List.drop_length]
      exact not_not_intro rfl
    refine .inl ⟨next, ?_⟩
    rw [hRead _ hSame, if_neg hEnd, ← hModule]
    rfl
  · obtain ⟨what, place, stop, hTablesStop⟩ := hRefuses
    exact .inr ⟨what, place, stop, hStop _ _ hTablesStop⟩

/-- No integer of the new widths occurs in a module: none at any depth of a type in a signature,
of the type of a field or of a constant, and none in an instruction. -/
structure WithoutNewIntegers (module : Module) : Prop where
  signatures : ∀ signature ∈ module.signatures.toList, ∀ token ∈ signature,
    ∀ width ∈ Width.allNew, .integer width ∉ token.nodes
  constants : ∀ constant ∈ module.constants.toList, ∀ width ∈ Width.allNew,
    .integer width ∉ constant.type.token.nodes
  fields : ∀ definition ∈ module.structDefinitions.toList, ∀ field ∈ definition.fields.toList,
    ∀ width ∈ Width.allNew, .integer width ∉ field.type.nodes
  instructions : ∀ definition ∈ module.functionDefinitions.toList, ∀ code ∈ definition.code,
    ∀ instruction ∈ code.instructions, instruction.opcode ∉ Opcode.allNew

namespace Readable

variable {module : Module} (h : module.Readable)

include h

/-- Version 6 has everything that version 5 has. -/
theorem atVersion_six : (module.atVersion 6).Readable where
  structHandles := h.structHandles
  functionHandles := h.functionHandles
  signatures := fun signature hSignature token hToken =>
    (h.signatures signature hSignature token hToken).six
  constants := fun constant hConstant => (h.constants constant hConstant).six
  structDefinitions := fun definition hDefinition field hField =>
    (h.structDefinitions definition hDefinition field hField).six
  functionDefinitions := fun _ _ _ _ instruction _ => instruction.opcode.allowedIn_six

/-- Version 5 has everything that the new integers do not occur in. -/
theorem atVersion_five_iff : (module.atVersion 5).Readable ↔ module.WithoutNewIntegers := by
  constructor
  · intro hFive
    refine ⟨?_, ?_, ?_, ?_⟩
    · intro signature hSignature token hToken
      exact (h.signatures signature hSignature token hToken).five_iff.mp
        (hFive.signatures signature hSignature token hToken)
    · intro constant hConstant
      exact (h.constants constant hConstant).five_iff.mp (hFive.constants constant hConstant)
    · intro definition hDefinition field hField
      exact (h.structDefinitions definition hDefinition field hField).five_iff.mp
        (hFive.structDefinitions definition hDefinition field hField)
    · intro definition hDefinition code hCode instruction hInstruction
      exact Opcode.allowedIn_five_iff.mp
        (hFive.functionDefinitions definition hDefinition code hCode instruction hInstruction)
  · intro hWithout
    refine ⟨h.structHandles, h.functionHandles, ?_, ?_, ?_, ?_⟩
    · intro signature hSignature token hToken
      exact (h.signatures signature hSignature token hToken).five_iff.mpr
        (hWithout.signatures signature hSignature token hToken)
    · intro constant hConstant
      exact (h.constants constant hConstant).five_iff.mpr (hWithout.constants constant hConstant)
    · intro definition hDefinition field hField
      exact (h.structDefinitions definition hDefinition field hField).five_iff.mpr
        (hWithout.fields definition hDefinition field hField)
    · intro definition hDefinition code hCode instruction hInstruction
      exact Opcode.allowedIn_five_iff.mpr
        (hWithout.instructions definition hDefinition code hCode instruction hInstruction)

end Readable

/-- What the header says aside, all that makes a module canonical is independent of the version. -/
theorem Canonical.atVersion {module : Module} {version : UInt32} (h : module.Canonical)
    (hVersion : isSupported version = true) (hReadable : (module.atVersion version).Readable) :
    (module.atVersion version).Canonical where
  magic := h.magic
  version := hVersion
  tableOrder := (module.emissionOrder_atVersion version).trans h.tableOrder
  readable := hReadable
  bounded := by
    rw [extents_atVersion]
    exact h.bounded

/-- The version decides about the new integers and about nothing else. An accepted file, whatever
its version, is also one of version 5 unless they occur in it, and if they do this is what is wrong
with it. It is always one of version 6. -/
theorem decode_withVersionWord :
    (∀ bytes module, decode bytes = .ok module →
      (module.WithoutNewIntegers →
        decode (withVersionWord bytes 5) = .ok { module with version := 5 }) ∧
      (¬ module.WithoutNewIntegers → ∃ what place,
        decode (withVersionWord bytes 5) =
          .error (.decode (.unsupportedInVersion what 5 place)))) ∧
    ∀ bytes module, decode bytes = .ok module →
      decode (withVersionWord bytes 6) = .ok { module with version := 6 } := by
  refine ⟨?_, ?_⟩
  · intro bytes module hDecode
    obtain ⟨hCanonical, rfl⟩ := decode_eq_ok.mp hDecode
    have hOld := hCanonical.readable.atVersion_five_iff
    have hFive : isSupported 5 = true := rfl
    rw [← encode_atVersion]
    refine ⟨?_, ?_⟩
    · intro hWithout
      exact decode_eq_ok.mpr ⟨hCanonical.atVersion hFive (hOld.mpr hWithout), rfl⟩
    · intro hNew
      -- The reader has two ends at most, and a module that is read is one that version 5 has.
      rcases read_encode_atVersion hCanonical hFive with ⟨next, hRead⟩ | hRefuses
      · exact absurd (hOld.mp (canonical_of_read hRead).1.readable) hNew
      · obtain ⟨what, place, stop, hStop⟩ := hRefuses
        exact ⟨what, place, by rw [decode, hStop]⟩
  · intro bytes module hDecode
    obtain ⟨hCanonical, rfl⟩ := decode_eq_ok.mp hDecode
    rw [← encode_atVersion]
    exact decode_eq_ok.mpr ⟨hCanonical.atVersion rfl hCanonical.readable.atVersion_six, rfl⟩

/-- A module with one signature, which names a vector of integers. -/
def vectorModule (width : Width) (version : UInt32) : Module :=
  { empty version with
    tableOrder := [.signatures]
    signatures := #[[.vector (.integer width)]] }

def vectorBytes (width : Width) (version : UInt8) : List UInt8 :=
  [0xA1, 0x1C, 0xEB, 0x0B, version, 0, 0, 0, 1, 5, 0, 3, 1, 0x0A, width.tag, 0]

/-- A signature of vectors of 16-bit integers is read in version 6 and refused in version 5. The
same file with 64-bit integers is read in both. -/
theorem decode_withVersionWord_vector :
    decode (vectorBytes .w16 6) = .ok (vectorModule .w16 6) ∧
      (∃ what place, decode (vectorBytes .w16 5) =
        .error (.decode (.unsupportedInVersion what 5 place))) ∧
      decode (vectorBytes .w64 6) = .ok (vectorModule .w64 6) ∧
      decode (vectorBytes .w64 5) = .ok (vectorModule .w64 5) := by
  obtain ⟨hDown, hUp⟩ := decode_withVersionWord
  have hWide : decode (vectorBytes .w16 6) = .ok (vectorModule .w16 6) := rfl
  have hPlain : decode (vectorBytes .w64 5) = .ok (vectorModule .w64 5) := rfl
  have hNew : ¬ (vectorModule .w16 6).WithoutNewIntegers := by
    intro hWithout
    exact hWithout.signatures _ (List.mem_singleton.mpr rfl) _ (List.mem_singleton.mpr rfl) .w16
      (by decide) (by simp [SignatureToken.nodes])
  have hOld : (vectorModule .w64 6).WithoutNewIntegers :=
    ⟨by simp [vectorModule, SignatureToken.nodes, Width.allNew], by simp [vectorModule, empty],
      by simp [vectorModule, empty], by simp [vectorModule, empty]⟩
  have hAgain := hUp (vectorBytes .w64 5) _ hPlain
  exact ⟨hWide, (hDown (vectorBytes .w16 6) _ hWide).2 hNew, hAgain,
    (hDown (vectorBytes .w64 6) _ hAgain).1 hOld⟩

end Module

end MoveModule
