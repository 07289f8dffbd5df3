import MoveModule.Proofs.Module.Tables

/-! The modules that files have, and their only files. A module is read from a byte string
if and only if it is written as this byte string and meets the conditions of a reader. The
reader finds the end of a module by itself, so it goes the same way through a longer file. -/
namespace MoveModule

open Binary

namespace Module

/-- The extents of all tables of a module that is written. -/
def extents (module : Module) : List Extent :=
  module.extentsFrom 0 module.emissionOrder

/-- What stands in front of the directory. -/
def header (module : Module) : List UInt8 :=
  module.magic.val ++ LittleEndian.encode 4 module.version.toNat

def directory (module : Module) : List UInt8 :=
  Uleb128.encode module.extents.length ++ module.extents.flatMap Extent.write

/-- What stands behind the directory. -/
def contents (module : Module) : List UInt8 :=
  module.emissionOrder.flatMap module.body ++ Index.codec.write module.self

/-- The file of a module in the parts in which it is read. -/
theorem encode_eq (module : Module) :
    module.encode = module.header ++ (module.directory ++ module.contents) := by
  have hCount : module.extents.length = module.bodies.length := by
    rw [← List.length_map Extent.kind, extents, map_kind_extentsFrom, bodies, List.length_map]
  have hDirectory : module.extents.flatMap Extent.write = directoryFrom 0 module.bodies :=
    (module.directoryFrom_eq 0 module.emissionOrder).symm
  rw [encode, header, directory, contents, hCount, hDirectory, flatMap_bodies]
  simp only [List.append_assoc]

theorem length_header (module : Module) : module.header.length = 8 := by
  rw [header, List.length_append, module.magic.property, LittleEndian.length_encode]

theorem nodup_kind_extents (module : Module) : (module.extents.map Extent.kind).Nodup := by
  rw [extents, map_kind_extentsFrom]
  exact module.nodup_emissionOrder

/-- What a reader for the version of the module takes: abilities that exist, types that are
not too deep, and types and instructions that the version has. -/
structure Readable (module : Module) : Prop where
  structHandles : ∀ handle ∈ module.structHandles.toList, handle.Readable
  functionHandles : ∀ handle ∈ module.functionHandles.toList, handle.Readable
  signatures : ∀ signature ∈ module.signatures.toList, ∀ token ∈ signature,
    token.Readable module.version
  constants : ∀ constant ∈ module.constants.toList, constant.type.Readable module.version
  structDefinitions : ∀ definition ∈ module.structDefinitions.toList,
    definition.Readable module.version
  functionDefinitions : ∀ definition ∈ module.functionDefinitions.toList,
    definition.Readable module.version

/-- Only the tables that are written have entries to read. -/
theorem readable_iff {module : Module} : module.Readable ↔
    ∀ kind ∈ module.emissionOrder, ∀ entry ∈ (module.entries kind).toList,
      kind.EntryReadable entry module.version := by
  constructor
  · intro hReadable kind _
    rcases hReadable with
      ⟨hStructs, hFunctions, hSignatures, hConstants, hStructDefinitions, hDefinitions⟩
    cases kind with
    | structHandles => exact hStructs
    | functionHandles => exact hFunctions
    | signatures => exact hSignatures
    | constants => exact hConstants
    | structDefinitions => exact hStructDefinitions
    | functionDefinitions => exact hDefinitions
    | _ => exact fun _ _ => trivial
  · intro hWritten
    have h (kind : TableKind) : ∀ entry ∈ (module.entries kind).toList,
        kind.EntryReadable entry module.version := by
      by_cases hKind : kind ∈ module.emissionOrder
      · exact hWritten kind hKind
      · simp [entries_eq_empty hKind]
    exact ⟨h .structHandles, h .functionHandles, h .signatures, h .constants,
      h .structDefinitions, h .functionDefinitions⟩

theorem readable_ordered {module : Module} : module.ordered.Readable ↔ module.Readable :=
  ⟨fun ⟨structs, functions, signatures, constants, fields, bodies⟩ =>
      ⟨structs, functions, signatures, constants, fields, bodies⟩,
    fun ⟨structs, functions, signatures, constants, fields, bodies⟩ =>
      ⟨structs, functions, signatures, constants, fields, bodies⟩⟩

/-- The modules that are read from files. -/
structure Canonical (module : Module) : Prop where
  magic : module.magic = magicBytes
  version : isSupported module.version = true
  /-- The recorded order is the order of writing. -/
  tableOrder : module.emissionOrder = module.tableOrder
  readable : module.Readable
  /-- The directory has a place for all its numbers. -/
  bounded : ∀ extent ∈ module.extents, extent.Bounded

section Complete

variable {module : Module} {cursor : Cursor} (hCanonical : module.Canonical)

include hCanonical

theorem readDirectory_of_isPrefix (hPrefix : module.directory <+: cursor.rest) :
    readDirectory cursor =
      .ok (module.extents, (module.emissionOrder.flatMap module.body).length)
        (cursor.advance module.directory.length) := by
  have hChained := module.chained_extentsFrom 0 module.emissionOrder
  rw [Nat.zero_add] at hChained
  exact readDirectory_eq_ok.mpr
    ⟨module.nodup_kind_extents, hChained, hCanonical.bounded, hPrefix, rfl⟩

/-- The tables are read behind the directory, whatever stands behind them. -/
theorem foldlM_readTable_of_isPrefix (hPlace : cursor.position ≤ cursor.bytes.toList.length)
    (hPrefix : module.emissionOrder.flatMap module.body <+: cursor.rest) :
    ∃ result, module.extents.foldlM (readTable cursor.position)
        { empty module.version with magic := module.magic } cursor = .ok result cursor ∧
      { result with self := module.self } = module := by
  have hOrder : module.extents.map Extent.kind = module.emissionOrder :=
    module.map_kind_extentsFrom 0 module.emissionOrder
  have hLaid := @chained_and_holds_iff cursor.position 0
    (module.emissionOrder.flatMap module.body).length cursor.bytes.toList module module.extents
    hPlace
  rw [hOrder, Nat.zero_add] at hLaid
  obtain ⟨-, hHolds⟩ := hLaid.mpr ⟨rfl, rfl, readable_iff.mp hCanonical.readable, hPrefix⟩
  have hNames : module.tableOrder = module.extents.map Extent.kind :=
    hCanonical.tableOrder.symm.trans hOrder.symm
  have hAll (kind : TableKind) (hSize : 0 < module.size kind) : kind ∈ module.tableOrder :=
    hCanonical.tableOrder ▸ mem_emissionOrder.mpr (.inr hSize)
  exact (foldlM_readTable_empty_eq_ok hCanonical.bounded module.nodup_kind_extents).mpr
    ⟨⟨rfl, rfl, rfl, hNames, hAll, hHolds⟩, rfl⟩

omit hCanonical in
/-- The handle of the module itself is read behind the tables, and the module ends there. -/
theorem readSelf_of_isPrefix (version : UInt32) (hPrefix : module.contents <+: cursor.rest) :
    ∃ next : Cursor, Index.codec.read version
        (cursor.seek (cursor.position + (module.emissionOrder.flatMap module.body).length)) =
          .ok module.self next ∧
      next.offset = cursor.offset + module.contents.length ∧
      next.rest = cursor.rest.drop module.contents.length := by
  obtain ⟨-, hSelf⟩ := append_prefix_iff.mp hPrefix
  rw [Cursor.rest, List.drop_drop, ← Cursor.rest_seek] at hSelf
  refine ⟨_, Index.read_eq_ok.mpr ⟨hSelf, rfl⟩, ?_, ?_⟩
  · simp only [Cursor.offset, Cursor.advance, Cursor.seek, contents, List.length_append,
      Nat.add_assoc]
  · rw [Cursor.rest_advance, Cursor.rest_seek, List.drop_drop, Cursor.rest, List.drop_drop,
      contents, List.length_append, Nat.add_assoc]

/-- A file with the parts of a module is read through, whatever its version and whatever stands
behind it. All that is left to see is whether the tables are read. -/
theorem read_of_readTable {version : UInt32} (hVersion : isSupported version = true)
    {bytes : List UInt8}
    (hPrefix : module.magic.val ++ LittleEndian.encode 4 version.toNat ++
      (module.directory ++ module.contents) <+: bytes) :
    ∃ start next : Cursor, start.position ≤ start.bytes.toList.length ∧
      module.emissionOrder.flatMap module.body <+: start.rest ∧
      next.offset = 8 + (module.directory ++ module.contents).length ∧
      next.rest = bytes.drop (8 + (module.directory ++ module.contents).length) ∧
      let tables := module.extents.foldlM (readTable start.position)
        { empty version with magic := module.magic }
      (∀ result, tables start = .ok result start → read (Cursor.ofBytes bytes) =
        if next.hasMore then .error (.trailingBytes next.offset) next
        else .ok { result with self := module.self } next) ∧
      ∀ error stop, tables start = .error error stop →
        read (Cursor.ofBytes bytes) = .error error stop := by
  have hLength : (module.magic.val ++ LittleEndian.encode 4 version.toNat).length = 8 := by
    rw [List.length_append, module.magic.property, LittleEndian.length_encode]
  rw [← Cursor.rest_ofBytes bytes] at hPrefix
  obtain ⟨hHeader, hBehind⟩ := append_prefix_iff.mp hPrefix
  have hInside := Cursor.position_advance_le (Nat.zero_le bytes.length) hHeader
  rw [hLength] at hBehind hInside
  rw [← Cursor.rest_advance] at hBehind
  obtain ⟨hDirectory, hContents⟩ := append_prefix_iff.mp hBehind
  have hPlace := Cursor.position_advance_le hInside hDirectory
  rw [← Cursor.rest_advance] at hContents
  obtain ⟨hTables, -⟩ := append_prefix_iff.mp hContents
  have hHeaderRead := readHeader_eq_ok.mpr ⟨hCanonical.magic, hVersion, hHeader, rfl⟩
  have hDirectoryRead := readDirectory_of_isPrefix hCanonical hDirectory
  obtain ⟨next, hSelfRead, hOffset, hRest⟩ := readSelf_of_isPrefix version hContents
  refine ⟨_, next, hPlace, hTables, ?_, ?_, ?_, ?_⟩
  · rw [hOffset, Cursor.offset_advance, Cursor.offset_advance, Cursor.offset_ofBytes, Nat.zero_add,
      Nat.add_assoc, List.length_append]
  · rw [hRest, Cursor.rest_advance, Cursor.rest_advance, Cursor.rest_ofBytes, List.drop_drop,
      List.drop_drop, List.length_append]
  · intro result hTablesRead
    simp only [read, Read.bind_of_eq_ok hHeaderRead, Read.bind_of_eq_ok hDirectoryRead,
      Read.get_bind]
    rw [Read.bind_of_eq_ok hTablesRead, Read.modify_bind,
      Read.bind_of_eq_ok (readPart_eq_ok.mpr hSelfRead), Read.get_bind]
    split
    · rfl
    · rfl
  · intro error stop hTablesRead
    simp only [read, Read.bind_of_eq_ok hHeaderRead, Read.bind_of_eq_ok hDirectoryRead,
      Read.get_bind]
    exact Read.bind_of_eq_error hTablesRead

/-- A reader finds the end of a module by itself, and refuses what stands behind it. -/
theorem read_of_isPrefix {bytes : List UInt8} (hPrefix : module.encode <+: bytes) :
    ∃ next : Cursor, next.offset = module.encode.length ∧
      next.rest = bytes.drop module.encode.length ∧
      read (Cursor.ofBytes bytes) =
        if next.hasMore then .error (.trailingBytes next.offset) next else .ok module next := by
  rw [encode_eq] at hPrefix
  rw [encode_eq, List.length_append, length_header]
  obtain ⟨start, next, hPlace, hTables, hOffset, hRest, hRead, -⟩ :=
    read_of_readTable hCanonical hCanonical.version hPrefix
  obtain ⟨result, hTablesRead, hModule⟩ := foldlM_readTable_of_isPrefix hCanonical hPlace hTables
  refine ⟨next, hOffset, hRest, ?_⟩
  rw [hRead result hTablesRead, hModule]

end Complete

/-- What is read behind the directory is all that stands there. -/
theorem contents_of_read {magic : Block 4} {version : UInt32} {result module : Module}
    {self : Index .moduleHandles} {extents : List Extent} {stop : Nat} {cursor middle next : Cursor}
    (hPlace : cursor.position ≤ cursor.bytes.toList.length)
    (hKinds : (extents.map Extent.kind).Nodup) (hBounded : ∀ extent ∈ extents, extent.Bounded)
    (hChained : Extent.Chained 0 extents stop)
    (hTables : extents.foldlM (readTable cursor.position)
      { empty version with magic := magic } cursor = .ok result middle)
    (hSelf : Index.codec.read version (middle.seek (cursor.position + stop)) = .ok self next)
    (hEnd : ¬ next.hasMore = true) (hModule : { result with self := self } = module) :
    module.magic = magic ∧ module.version = version ∧ module.emissionOrder = module.tableOrder ∧
      module.Readable ∧ extents = module.extents ∧ module.contents = cursor.rest := by
  obtain ⟨⟨rfl, rfl, rfl, hOrder, hAll, hHolds⟩, rfl⟩ :=
    (foldlM_readTable_empty_eq_ok hBounded hKinds).mp ⟨result, hTables, hModule⟩
  have hEmission := emissionOrder_eq_tableOrder (hOrder ▸ hKinds) hAll
  obtain ⟨hExtents, hStop, hReadable, hPrefix⟩ :=
    (chained_and_holds_iff hPlace).mp ⟨hChained, hHolds⟩
  rw [← hOrder, ← hEmission] at hExtents hStop hReadable hPrefix
  obtain ⟨hSelfPrefix, rfl⟩ := Index.read_eq_ok.mp hSelf
  rw [Cursor.hasMore_iff, ne_eq, Decidable.not_not, Cursor.rest_advance] at hEnd
  have hRest := List.prefix_iff_eq_append.mp hSelfPrefix
  rw [hEnd, List.append_nil, Cursor.rest_seek, hStop, Nat.zero_add, ← List.drop_drop] at hRest
  exact ⟨rfl, rfl, hEmission, readable_iff.mpr hReadable, hExtents,
    append_eq_iff.mpr ⟨hPrefix, hRest⟩⟩

/-- A module is read from no other byte string than its file. -/
theorem canonical_of_read {bytes : List UInt8} {module : Module} {next : Cursor}
    (h : read (Cursor.ofBytes bytes) = .ok module next) :
    module.Canonical ∧ module.encode = bytes := by
  simp only [read, Read.bind_eq_ok, Prod.exists, readHeader_eq_ok, readDirectory_eq_ok,
    readPart_eq_ok, Read.get_eq_ok, Read.modify_eq_ok, Read.pure_eq_ok, Read.throw_eq_ok,
    Read.ite_eq_ok, false_and, and_false, exists_false, false_or] at h
  rcases h with
    ⟨magic, version, _, ⟨rfl, hVersion, hHeader, rfl⟩, extents, stop, _,
      ⟨hKinds, hChained, hBounded, hDirectory, rfl⟩, _, _, ⟨rfl, rfl⟩, result, middle, hTables,
      _, _, rfl, self, next, hSelf, _, _, ⟨rfl, rfl⟩, hEnd, hModule, rfl⟩
  have hPlace := Cursor.position_advance_le
    (Cursor.position_advance_le (Nat.zero_le bytes.length) hHeader) hDirectory
  obtain ⟨hMagic, rfl, hEmission, hReadable, rfl, hContents⟩ :=
    contents_of_read hPlace hKinds hBounded hChained hTables hSelf hEnd hModule
  rw [← hMagic] at hHeader
  refine ⟨⟨hMagic, hVersion, hEmission, hReadable, hBounded⟩, ?_⟩
  rw [encode_eq, append_eq_iff, append_eq_iff, length_header, ← Cursor.rest_ofBytes bytes,
    ← Cursor.rest_advance, ← Cursor.rest_advance]
  exact ⟨hHeader, hDirectory, hContents⟩

theorem decode_eq_ok {bytes : List UInt8} {module : Module} :
    decode bytes = .ok module ↔ module.Canonical ∧ module.encode = bytes := by
  constructor
  · intro h
    rw [decode] at h
    cases hRead : read (Cursor.ofBytes bytes) with
    | error error next => simp [hRead] at h
    | ok result next =>
        obtain rfl : result = module := by simpa [hRead] using h
        exact canonical_of_read hRead
  · intro h
    obtain ⟨hCanonical, rfl⟩ := h
    obtain ⟨next, -, hRest, hRead⟩ := read_of_isPrefix hCanonical (List.prefix_refl module.encode)
    have hEnd : ¬ next.hasMore = true := by
      rw [Cursor.hasMore_iff, hRest, List.drop_length]
      exact not_not_intro rfl
    rw [decode, hRead, if_neg hEnd]

/-- The directory has a place for the numbers of tables that are short enough together. -/
theorem bounded_of_mem_extents {module : Module}
    (hSize : (module.bodies.flatMap Prod.snd).length < UInt32.size) {extent : Extent}
    (hExtent : extent ∈ module.extents) : extent.Bounded := by
  have hInside := le_of_mem_extentsFrom hExtent
  rw [flatMap_bodies] at hSize
  have hLimit : UInt32.size = 0xFFFFFFFF + 1 := rfl
  exact ⟨by omega, by omega⟩

theorem canonical_ordered {module : Module} (hMagic : module.magic = magicBytes)
    (hVersion : isSupported module.version = true) (hReadable : module.Readable)
    (hSize : (module.bodies.flatMap Prod.snd).length < UInt32.size) : module.ordered.Canonical where
  magic := hMagic
  version := hVersion
  tableOrder := module.emissionOrder_ordered
  readable := readable_ordered.mpr hReadable
  bounded := by
    intro extent hExtent
    rw [← bodies_ordered] at hSize
    exact bounded_of_mem_extents hSize hExtent

/-- A module that a reader takes comes back with the order in which it was written. Its
indices may lead nowhere, and its recorded order may name tables twice, name empty ones and
leave out others. -/
theorem decode_encode {module : Module} (hMagic : module.magic = magicBytes)
    (hVersion : isSupported module.version = true) (hReadable : module.Readable)
    (hSize : (module.bodies.flatMap Prod.snd).length < UInt32.size) :
    decode module.encode = .ok { module with tableOrder := module.emissionOrder } :=
  decode_eq_ok.mpr ⟨canonical_ordered hMagic hVersion hReadable hSize, module.encode_ordered⟩

/-- A struct handle that leads nowhere, in a table that the recorded order leaves out. -/
theorem decode_encode_loose :
    let handle : StructHandle := ⟨⟨7⟩, ⟨9⟩, ⟨5⟩, [⟨⟨12⟩, true⟩]⟩
    let module : Module :=
      { empty 5 with tableOrder := [.friends, .metadata, .friends], structHandles := #[handle] }
    decode module.encode =
      .ok { module with tableOrder := [.friends, .metadata, .structHandles] } := by
  intro handle module
  have hHandle : handle.Readable := by
    simp [handle, StructHandle.Readable, AbilitySet.Known]
  exact @decode_encode module rfl rfl
    ⟨List.forall_mem_singleton.mpr hHandle, by simp [module, empty], by simp [module, empty],
      by simp [module, empty], by simp [module, empty], by simp [module, empty]⟩
    (by decide +kernel)

end Module

end MoveModule
