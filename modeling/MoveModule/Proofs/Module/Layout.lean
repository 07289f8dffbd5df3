import MoveModule.Proofs.Module.Parts

/-! What the writer says about the tables of a module. It lists every table that has entries, and
no table twice. The entries with 32-bit numbers that a module has for its tables are the directory
of its file, and the directory that was read if the module comes from a file. -/
namespace MoveModule

open Binary

/-- The entry of the directory with its numbers as they are read. -/
def TableEntry.extent (entry : TableEntry) : Extent :=
  ⟨entry.kind, entry.offset.toNat, entry.length.toNat⟩

namespace Module

theorem count_emissionOrder {module : Module} {kind : TableKind} (h : 0 < module.size kind) :
    module.emissionOrder.count kind = 1 := by
  rw [module.nodup_emissionOrder.count, if_pos (mem_emissionOrder.mpr (.inr h))]

/-- The offsets with 32 bits and those of the writer are the same as long as they have a place in
the directory. -/
theorem map_extent_layoutFrom {module : Module} {start : Nat} {kinds : List TableKind}
    (hBounded : ∀ extent ∈ module.extentsFrom start kinds, extent.Bounded) :
    (layoutFrom (UInt32.ofNat start) (kinds.map fun kind => (kind, module.body kind))).map
      TableEntry.extent = module.extentsFrom start kinds := by
  induction kinds generalizing start with
  | nil => rfl
  | cons kind rest ih =>
      rw [extentsFrom] at hBounded
      obtain ⟨⟨hStart, hLength⟩, hRest⟩ := List.forall_mem_cons.mp hBounded
      have hOffset : (UInt32.ofNat start).toNat = start :=
        UInt32.toNat_ofNat_of_lt' (Nat.lt_succ_of_le hStart)
      have hBody : (UInt32.ofNat (module.body kind).length).toNat = (module.body kind).length :=
        UInt32.toNat_ofNat_of_lt' (Nat.lt_succ_of_le hLength)
      simp only [List.map_cons, layoutFrom, extentsFrom, TableEntry.extent, hOffset, hBody,
        ← UInt32.ofNat_add, ih hRest]

/-- What a module says about its tables is the directory of its file. -/
theorem map_extent_layout {module : Module}
    (hBounded : ∀ extent ∈ module.extents, extent.Bounded) :
    module.layout.map TableEntry.extent = module.parts.directory :=
  map_extent_layoutFrom hBounded

/-- An entry has the length of its table and starts behind all those before it. -/
theorem length_and_offset_of_getElem?_layout {module : Module}
    (hBounded : ∀ extent ∈ module.extents, extent.Bounded) {place : Nat} {entry : TableEntry}
    (hEntry : module.layout[place]? = some entry) :
    entry.length.toNat = (module.body entry.kind).length ∧
      entry.offset.toNat =
        ((module.layout.take place).map fun earlier => earlier.length.toNat).sum := by
  have hExtent : module.parts.directory[place]? = some entry.extent := by
    rw [← map_extent_layout hBounded, List.getElem?_map, hEntry, Option.map_some]
  have hLengths := congrArg (·[place]?) module.parts.lengths
  have hOffset := module.contiguous_parts place entry.extent hExtent
  simp only [List.getElem?_map, hExtent, (getElem?_bodies_parts hExtent).2, Option.map_some,
    Option.some.injEq] at hLengths
  rw [← map_extent_layout hBounded, ← List.map_take, List.map_map] at hOffset
  exact ⟨hLengths, hOffset⟩

/-- A reader of the file finds the directory behind the header. -/
theorem readDirectory_encode {module : Module} (hCanonical : module.Canonical) :
    ∃ stop next, readDirectory ((Cursor.ofBytes module.encode).advance 8) =
      .ok (module.parts.directory, stop) next := by
  have hBehind : ((Cursor.ofBytes module.encode).advance 8).rest =
      module.directory ++ module.contents := by
    rw [Cursor.rest_advance, Cursor.rest_ofBytes, encode_eq, ← module.length_header,
      List.drop_left]
  exact ⟨_, _, readDirectory_of_isPrefix hCanonical (hBehind ▸ List.prefix_append _ _)⟩

/-- No table is lost, written twice or put at another place. Recorded tables come first, each
where its name occurs first, and then all others with entries in their own order. What a module
says about its tables is the directory of its file, and the one that was read if the module comes
from a file. -/
theorem layout_lists_written_tables (module : Module) :
    (module.emissionOrder.Nodup ∧
      module.emissionOrder = module.tableOrder.eraseDups ++
        TableKind.canonicalOrder.filter (fun kind =>
          0 < module.size kind ∧ kind ∉ module.tableOrder) ∧
      ∀ kind, 0 < module.size kind → module.emissionOrder.count kind = 1) ∧
    ((module.bodies.flatMap Prod.snd).length < UInt32.size →
      module.layout.map TableEntry.kind = module.emissionOrder ∧
      (∀ place entry, module.layout[place]? = some entry →
        entry.length.toNat = (module.body entry.kind).length ∧
          entry.offset.toNat =
            ((module.layout.take place).map fun earlier => earlier.length.toNat).sum) ∧
      ∃ parts : Parts, parts.Describes module.encode ∧
        parts.directory = module.layout.map TableEntry.extent ∧
        parts.bodies = module.emissionOrder.map module.body) ∧
    ∀ bytes, decode bytes = .ok module →
      (∃ parts : Parts, parts.Describes bytes ∧
        parts.directory = module.layout.map TableEntry.extent) ∧
      ∃ stop next, readDirectory ((Cursor.ofBytes bytes).advance 8) =
        .ok (module.layout.map TableEntry.extent, stop) next := by
  refine ⟨⟨module.nodup_emissionOrder, module.emissionOrder_eq_append, ?_⟩, ?_, ?_⟩
  · intro kind hSize
    exact count_emissionOrder hSize
  · intro hSize
    have hBounded (extent : Extent) (h : extent ∈ module.extents) := bounded_of_mem_extents hSize h
    have hDirectory := map_extent_layout hBounded
    have hKinds : module.layout.map TableEntry.kind = module.emissionOrder := by
      rw [← map_kind_directory_parts, ← hDirectory, List.map_map]
      rfl
    refine ⟨hKinds, ?_, module.parts, module.describes_encode, hDirectory.symm, rfl⟩
    intro place entry hEntry
    exact length_and_offset_of_getElem?_layout hBounded hEntry
  · intro bytes hDecode
    obtain ⟨hCanonical, rfl⟩ := decode_eq_ok.mp hDecode
    rw [map_extent_layout hCanonical.bounded]
    exact ⟨⟨module.parts, module.describes_encode, rfl⟩, readDirectory_encode hCanonical⟩

/-- A module whose order names a table twice, names an empty one and leaves out another. -/
def scatteredModule : Module :=
  { empty 6 with
    tableOrder := [.metadata, .signatures, .metadata]
    signatures := #[[.bool]]
    moduleHandles := #[⟨⟨7⟩, ⟨9⟩⟩] }

def scatteredBytes : List UInt8 :=
  [0xA1, 0x1C, 0xEB, 0x0B, 6, 0, 0, 0, 3, 0x10, 0, 0, 5, 0, 2, 1, 2, 2, 1, 1, 7, 9, 0]

/-- The empty table keeps its place, and the table that was left out comes last. -/
theorem layout_lists_written_tables_scattered :
    scatteredModule.emissionOrder = [.metadata, .signatures, .moduleHandles] ∧
      scatteredModule.layout.map TableEntry.kind = [.metadata, .signatures, .moduleHandles] ∧
      decode scatteredBytes = .ok scatteredModule.ordered ∧
      ∃ stop next, readDirectory ((Cursor.ofBytes scatteredBytes).advance 8) =
        .ok ([⟨.metadata, 0, 0⟩, ⟨.signatures, 0, 2⟩, ⟨.moduleHandles, 2, 2⟩], stop) next := by
  have hSize : (scatteredModule.bodies.flatMap Prod.snd).length < UInt32.size := by decide +kernel
  have hOrder : scatteredModule.emissionOrder = [.metadata, .signatures, .moduleHandles] := rfl
  have hDecode : decode scatteredBytes = .ok scatteredModule.ordered := rfl
  have hLayout : scatteredModule.ordered.layout.map TableEntry.extent =
      [⟨.metadata, 0, 0⟩, ⟨.signatures, 0, 2⟩, ⟨.moduleHandles, 2, 2⟩] := by
    decide +kernel
  obtain ⟨-, hWritten, -⟩ := layout_lists_written_tables scatteredModule
  obtain ⟨-, -, hRead⟩ := layout_lists_written_tables scatteredModule.ordered
  obtain ⟨hKinds, -, -⟩ := hWritten hSize
  obtain ⟨-, hDirectory⟩ := hRead scatteredBytes hDecode
  rw [hLayout] at hDirectory
  exact ⟨hOrder, hOrder ▸ hKinds, hDecode, hDirectory⟩

end Module

end MoveModule
