import MoveModule.Proofs.Module.Directory
import MoveModule.Proofs.Module.Order
import MoveModule.Proofs.Table

/-! How the tables of a module are read. Each of them is read if its bytes stand where the
directory says and are those of entries that a reader takes. Tables that lie as they are
written are read from their bytes, which stand together behind the directory. -/
namespace MoveModule

open Binary

/-- The bytes of an extent are those of a table of the module, all of whose entries a
reader takes. -/
structure Extent.Holds (extent : Extent) (contents : Nat) (bytes : List UInt8)
    (module : Module) : Prop where
  inside : contents + extent.offset + extent.length ≤ bytes.length
  readable : ∀ entry ∈ (module.entries extent.kind).toList,
    extent.kind.EntryReadable entry module.version
  body : module.body extent.kind = (bytes.drop (contents + extent.offset)).take extent.length

/-- It depends on the version and on the entries of the table alone. -/
theorem Extent.Holds.congr {extent : Extent} {contents : Nat} {bytes : List UInt8}
    {first second : Module} (h : extent.Holds contents bytes first)
    (hVersion : first.version = second.version)
    (hEntries : first.entries extent.kind = second.entries extent.kind) :
    extent.Holds contents bytes second := by
  obtain ⟨hInside, hReadable, hFound⟩ := h
  have hBody : first.body extent.kind = second.body extent.kind := by
    rw [Module.body, hEntries, Module.body]
  rw [hEntries, hVersion] at hReadable
  rw [hBody] at hFound
  exact ⟨hInside, hReadable, hFound⟩

/-- The same table of two modules is in the same place of the file, if the versions and the entries
agree. -/
theorem Extent.holds_congr {extent : Extent} {contents : Nat} {bytes : List UInt8}
    {first second : Module} (hVersion : first.version = second.version)
    (hEntries : first.entries extent.kind = second.entries extent.kind) :
    extent.Holds contents bytes first ↔ extent.Holds contents bytes second := by
  constructor
  · intro h
    exact h.congr hVersion hEntries
  · intro h
    exact h.congr hVersion.symm hEntries.symm

namespace Module

/-- The module with one table more. -/
def fill (module : Module) (kind : TableKind) (entries : Array kind.Entry) : Module :=
  { module.withEntries kind entries with tableOrder := module.tableOrder ++ [kind] }

@[simp]
theorem magic_fill (module : Module) (kind : TableKind) (entries : Array kind.Entry) :
    (module.fill kind entries).magic = module.magic :=
  magic_withEntries module kind entries

@[simp]
theorem version_fill (module : Module) (kind : TableKind) (entries : Array kind.Entry) :
    (module.fill kind entries).version = module.version :=
  version_withEntries module kind entries

@[simp]
theorem self_fill (module : Module) (kind : TableKind) (entries : Array kind.Entry) :
    (module.fill kind entries).self = module.self :=
  self_withEntries module kind entries

@[simp]
theorem tableOrder_fill (module : Module) (kind : TableKind) (entries : Array kind.Entry) :
    (module.fill kind entries).tableOrder = module.tableOrder ++ [kind] := rfl

@[simp]
theorem entries_fill (module : Module) (kind : TableKind) (entries : Array kind.Entry) :
    (module.fill kind entries).entries kind = entries := by
  cases kind <;> rfl

/-- A table that is filled in leaves all others as they are. -/
theorem entries_fill_of_ne (module : Module) {kind other : TableKind}
    (entries : Array kind.Entry) (h : other ≠ kind) :
    (module.fill kind entries).entries other = module.entries other := by
  rw [← entries_withEntries_of_ne module entries h]
  cases other <;> rfl

section ReadTable

variable {contents : Nat} {module result : Module} {extent : Extent} {cursor next : Cursor}

/-- The bytes of a table are read by themselves, if they are all there. -/
theorem readTable_eq_ok_iff_every :
    readTable contents module extent cursor = .ok result next ↔
      ¬ cursor.bytes.size < contents + extent.offset + extent.length ∧ ∃ entries stop,
        Read.every (extent.kind.entryCodec.read module.version) (cursor.window
          (contents + extent.offset) (contents + extent.offset + extent.length)) =
            .ok entries stop ∧
        result = module.fill extent.kind entries ∧ next = cursor := by
  by_cases hInside : cursor.bytes.size < contents + extent.offset + extent.length
  · simp [readTable, hInside]
  · cases hRead : Read.every (extent.kind.entryCodec.read module.version) (cursor.window
        (contents + extent.offset) (contents + extent.offset + extent.length)) with
    | error error stop => simp [readTable, hInside, hRead]
    | ok entries stop =>
        have hFilled : readTable contents module extent cursor =
            .ok (module.fill extent.kind entries) cursor := by
          simp only [readTable, if_neg hInside, hRead, fill, tableOrder_withEntries]
        rw [hFilled]
        constructor
        · intro h
          obtain ⟨rfl, rfl⟩ := EStateM.Result.ok.inj h
          exact ⟨hInside, entries, stop, rfl, rfl, rfl⟩
        · intro h
          obtain ⟨-, _, _, hSame, rfl, rfl⟩ := h
          obtain ⟨rfl, rfl⟩ := EStateM.Result.ok.inj hSame
          rfl

/-- A table is read from its own bytes only. An error in them is the error of the table, and the
cursor of the module has not moved by then. -/
theorem readTable_of_every_eq_error {error : DecodeError} {stop : Cursor}
    (hInside : ¬ cursor.bytes.size < contents + extent.offset + extent.length)
    (hRead : Read.every (extent.kind.entryCodec.read module.version) (cursor.window
      (contents + extent.offset) (contents + extent.offset + extent.length)) = .error error stop) :
    readTable contents module extent cursor = .error (.decode error) cursor := by
  simp only [readTable, if_neg hInside, hRead]

/-- A table is read if its bytes are all there and are those of entries that are read. -/
theorem readTable_eq_ok (hBounded : extent.Bounded) :
    readTable contents module extent cursor = .ok result next ↔
      ∃ entries, result = module.fill extent.kind entries ∧
        extent.Holds contents cursor.bytes.toList result ∧ next = cursor := by
  have hExact := extent.kind.exact_entryCodec module.version
  have hWrite := extent.kind.write_entry_ne_nil
  have hWindow := cursor.rest_window (contents + extent.offset) extent.length
  rw [readTable_eq_ok_iff_every, Nat.not_lt]
  constructor
  · intro h
    obtain ⟨hInside, entries, stop, hRead, rfl, rfl⟩ := h
    obtain ⟨hAll, hBody⟩ := Read.every_sound hExact hWrite hRead
    rw [hWindow] at hBody
    refine ⟨entries, rfl, ⟨?_, ?_, ?_⟩, rfl⟩
    · rwa [Array.length_toList]
    · rwa [entries_fill, version_fill]
    · rwa [body, entries_fill]
  · intro hFilled
    rcases hFilled with ⟨entries, rfl, ⟨hInside, hAll, hBody⟩, rfl⟩
    rw [entries_fill, version_fill] at hAll
    rw [body, entries_fill] at hBody
    have hSize : (entries.toList.flatMap extent.kind.entryCodec.write).length < UInt64.size := by
      rw [hBody, List.length_take]
      have hLength := hBounded.2
      have hLimit : 0xFFFFFFFF < UInt64.size := by decide
      omega
    obtain ⟨stop, hRead⟩ :=
      Read.every_complete hExact hWrite hAll hSize (hBody.trans hWindow.symm)
    rw [Array.length_toList] at hInside
    exact ⟨hInside, entries, stop, hRead, rfl, rfl⟩

end ReadTable

/-- The extents of tables that a file adds to a module, one table for each. -/
structure Filled (contents : Nat) (bytes : List UInt8) (module result : Module)
    (extents : List Extent) : Prop where
  magic : result.magic = module.magic
  version : result.version = module.version
  self : result.self = module.self
  tableOrder : result.tableOrder = module.tableOrder ++ extents.map Extent.kind
  kept : ∀ kind ∉ extents.map Extent.kind, result.entries kind = module.entries kind
  found : ∀ extent ∈ extents, extent.Holds contents bytes result

namespace Filled

variable {contents : Nat} {bytes : List UInt8} {module result : Module} {extent : Extent}
  {extents : List Extent}

/-- With no table to read, the module is what it was. -/
theorem nil_iff : Filled contents bytes module result [] ↔ result = module := by
  constructor
  · intro h
    obtain ⟨hMagic, hVersion, hSelf, hOrder, hKept, _⟩ := h
    have hSameOrder : result.tableOrder = module.tableOrder := by simpa using hOrder
    have hEntries (kind : TableKind) : result.entries kind = module.entries kind :=
      hKept kind List.not_mem_nil
    exact ext_entries hMagic hVersion hSameOrder hEntries hSelf
  · intro hSame
    subst hSame
    exact ⟨rfl, rfl, rfl, by simp, fun _ _ => rfl, by simp⟩

/-- The first table may be put into the module before all others. -/
theorem cons_iff : Filled contents bytes module result (extent :: extents) ↔
    extent.Holds contents bytes result ∧
      Filled contents bytes (module.fill extent.kind (result.entries extent.kind)) result
        extents := by
  constructor
  · intro h
    obtain ⟨hMagic, hVersion, hSelf, hOrder, hKept, hFound⟩ := h
    obtain ⟨hFirst, hRest⟩ := List.forall_mem_cons.mp hFound
    refine ⟨hFirst, ⟨?_, ?_, ?_, ?_, ?_, hRest⟩⟩
    · rwa [magic_fill]
    · rwa [version_fill]
    · rwa [self_fill]
    · simpa using hOrder
    · intro kind hKind
      by_cases hSame : kind = extent.kind
      · subst hSame
        rw [entries_fill]
      · have hOther : kind ∉ (extent :: extents).map Extent.kind := by
          rw [List.map_cons, List.mem_cons, not_or]
          exact ⟨hSame, hKind⟩
        rw [entries_fill_of_ne _ _ hSame]
        exact hKept kind hOther
  · intro h
    obtain ⟨hFirst, ⟨hMagic, hVersion, hSelf, hOrder, hKept, hRest⟩⟩ := h
    refine ⟨?_, ?_, ?_, ?_, ?_, List.forall_mem_cons.mpr ⟨hFirst, hRest⟩⟩
    · rwa [magic_fill] at hMagic
    · rwa [version_fill] at hVersion
    · rwa [self_fill] at hSelf
    · simpa using hOrder
    · intro kind hKind
      rw [List.map_cons, List.mem_cons, not_or] at hKind
      rw [hKept kind hKind.2, entries_fill_of_ne _ _ hKind.1]

end Filled

/-- Tables of different kinds are read if the bytes of each of them are. -/
theorem foldlM_readTable_eq_ok {contents : Nat} {module result : Module} {extents : List Extent}
    {cursor next : Cursor} (hBounded : ∀ extent ∈ extents, extent.Bounded)
    (hKinds : (extents.map Extent.kind).Nodup) :
    extents.foldlM (readTable contents) module cursor = .ok result next ↔
      Filled contents cursor.bytes.toList module result extents ∧ next = cursor := by
  induction extents generalizing module with
  | nil =>
      rw [List.foldlM_nil, Read.pure_eq_ok, Filled.nil_iff]
      exact and_congr eq_comm eq_comm
  | cons extent extents ih =>
      obtain ⟨hExtent, hExtents⟩ := List.forall_mem_cons.mp hBounded
      obtain ⟨hNew, hKinds⟩ := List.nodup_cons.mp hKinds
      simp only [List.foldlM_cons, Read.bind_eq_ok, readTable_eq_ok hExtent]
      constructor
      · intro h
        obtain ⟨_, _, ⟨entries, rfl, hHolds, rfl⟩, hRest⟩ := h
        obtain ⟨hFilled, rfl⟩ := (ih hExtents hKinds).mp hRest
        have hEntries : result.entries extent.kind = entries := by
          rw [hFilled.kept _ hNew, entries_fill]
        have hSame : (module.fill extent.kind entries).entries extent.kind =
            result.entries extent.kind := by
          rw [hEntries, entries_fill]
        have hFirst := hHolds.congr hFilled.version.symm hSame
        rw [Filled.cons_iff, hEntries]
        exact ⟨⟨hFirst, hFilled⟩, rfl⟩
      · intro h
        obtain ⟨hFilled, rfl⟩ := h
        obtain ⟨hHolds, hFilled⟩ := Filled.cons_iff.mp hFilled
        have hSame : result.entries extent.kind =
            (module.fill extent.kind (result.entries extent.kind)).entries extent.kind := by
          rw [entries_fill]
        have hFirst := hHolds.congr hFilled.version hSame
        have hRest := (ih hExtents hKinds).mpr ⟨hFilled, rfl⟩
        exact ⟨_, _, ⟨_, rfl, hFirst, rfl⟩, hRest⟩

/-- The extents of tables that are written one after the other, the first one at `start`. -/
def extentsFrom (module : Module) (start : Nat) : List TableKind → List Extent
  | [] => []
  | kind :: rest =>
      ⟨kind, start, (module.body kind).length⟩ ::
        module.extentsFrom (start + (module.body kind).length) rest

theorem map_kind_extentsFrom (module : Module) (start : Nat) (kinds : List TableKind) :
    (module.extentsFrom start kinds).map Extent.kind = kinds := by
  induction kinds generalizing start with
  | nil => rfl
  | cons kind rest ih => rw [extentsFrom, List.map_cons, ih]

/-- The directory is written entry by entry from the same places that are kept for each table. -/
theorem directoryFrom_eq (module : Module) (start : Nat) (kinds : List TableKind) :
    directoryFrom start (kinds.map fun kind => (kind, module.body kind)) =
      (module.extentsFrom start kinds).flatMap Extent.write := by
  induction kinds generalizing start with
  | nil => rfl
  | cons kind rest ih =>
      rw [List.map_cons, directoryFrom, extentsFrom, List.flatMap_cons, ih]
      rfl

/-- Tables that are written one after the other follow one another. -/
theorem chained_extentsFrom (module : Module) (start : Nat) (kinds : List TableKind) :
    Extent.Chained start (module.extentsFrom start kinds)
      (start + (kinds.flatMap module.body).length) := by
  induction kinds generalizing start with
  | nil => rfl
  | cons kind rest ih =>
      rw [List.flatMap_cons, List.length_append, ← Nat.add_assoc]
      exact ⟨rfl, ih _⟩

/-- No table ends behind the last one, since each begins where the one before it ends. -/
theorem le_of_mem_extentsFrom {module : Module} {start : Nat} {kinds : List TableKind}
    {extent : Extent} (h : extent ∈ module.extentsFrom start kinds) :
    extent.offset + extent.length ≤ start + (kinds.flatMap module.body).length := by
  induction kinds generalizing start with
  | nil => simp [extentsFrom] at h
  | cons kind rest ih =>
      rw [List.flatMap_cons, List.length_append]
      rcases List.mem_cons.mp h with rfl | hRest
      · simp only
        omega
      · have hLater := ih hRest
        omega

/-- Tables follow one another and hold the entries of a module if and only if they lie as
they are written and their bytes are together at the place of the first one. -/
theorem chained_and_holds_iff {contents start stop : Nat} {bytes : List UInt8} {module : Module}
    {extents : List Extent} (hStart : contents + start ≤ bytes.length) :
    Extent.Chained start extents stop ∧ (∀ extent ∈ extents, extent.Holds contents bytes module) ↔
      extents = module.extentsFrom start (extents.map Extent.kind) ∧
        stop = start + ((extents.map Extent.kind).flatMap module.body).length ∧
        (∀ kind ∈ extents.map Extent.kind, ∀ entry ∈ (module.entries kind).toList,
          kind.EntryReadable entry module.version) ∧
        (extents.map Extent.kind).flatMap module.body <+: bytes.drop (contents + start) := by
  induction extents generalizing start with
  | nil => simp [Extent.Chained, extentsFrom, eq_comm]
  | cons extent rest ih =>
      obtain ⟨kind, offset, length⟩ := extent
      rw [List.map_cons, extentsFrom, List.flatMap_cons, append_prefix_iff, List.length_append,
        List.drop_drop]
      constructor
      · intro h
        obtain ⟨⟨rfl, hChained⟩, hAll⟩ := h
        obtain ⟨⟨hInside, hReadable, hBody⟩, hRest⟩ := List.forall_mem_cons.mp hAll
        have hLength : (module.body kind).length = length := by
          rw [hBody, List.length_take, List.length_drop]
          simp only at hInside ⊢
          omega
        obtain ⟨hExtents, rfl, hReadableRest, hPrefix⟩ :=
          (ih (Nat.add_assoc _ _ _ ▸ hInside)).mp ⟨hChained, hRest⟩
        rw [hLength, ← hExtents]
        have hReadableAll := List.forall_mem_cons.mpr ⟨hReadable, hReadableRest⟩
        refine ⟨rfl, Nat.add_assoc _ _ _, hReadableAll, ?_, ?_⟩
        · rw [hBody]
          exact List.take_prefix _ _
        · rwa [Nat.add_assoc]
      · intro h
        obtain ⟨hExtents, rfl, hReadable, hFirst, hPrefix⟩ := h
        obtain ⟨hSame, hRest⟩ := List.cons.inj hExtents
        obtain ⟨rfl, rfl⟩ : offset = start ∧ length = (module.body kind).length :=
          (Extent.mk.inj hSame).2
        obtain ⟨hReadableFirst, hReadableRest⟩ := List.forall_mem_cons.mp hReadable
        have hInside : contents + offset + (module.body kind).length ≤ bytes.length := by
          have hLength : (module.body kind).length ≤ _ := hFirst.length_le
          rw [List.length_drop] at hLength
          omega
        have hBody := List.prefix_iff_eq_take.mp hFirst
        rw [Nat.add_assoc] at hPrefix
        obtain ⟨hChained, hHolds⟩ := (ih (Nat.add_assoc _ _ _ ▸ hInside)).mpr
          ⟨hRest, (Nat.add_assoc _ _ _).symm, hReadableRest, hPrefix⟩
        have hAll := List.forall_mem_cons.mpr ⟨⟨hInside, hReadableFirst, hBody⟩, hHolds⟩
        exact ⟨⟨rfl, hChained⟩, hAll⟩

/-- The tables that are put into a module without entries are all those of the result that
have any. -/
theorem foldlM_readTable_empty_eq_ok {contents : Nat} {magic : Block 4} {version : UInt32}
    {self : Index .moduleHandles} {module : Module} {extents : List Extent} {cursor next : Cursor}
    (hBounded : ∀ extent ∈ extents, extent.Bounded) (hKinds : (extents.map Extent.kind).Nodup) :
    (∃ result, extents.foldlM (readTable contents) { empty version with magic := magic } cursor =
        .ok result next ∧ { result with self := self } = module) ↔
      (module.magic = magic ∧ module.version = version ∧ module.self = self ∧
        module.tableOrder = extents.map Extent.kind ∧
        (∀ kind, 0 < module.size kind → kind ∈ module.tableOrder) ∧
        ∀ extent ∈ extents, extent.Holds contents cursor.bytes.toList module) ∧ next = cursor := by
  have hEntries (other : Module) (self : Index .moduleHandles) (kind : TableKind) :
      { other with self := self }.entries kind = other.entries kind := by
    cases kind <;> rfl
  have hEmpty (kind : TableKind) :
      { empty version with magic := magic }.entries kind = #[] := by
    cases kind <;> rfl
  have hHolds (other : Module) (self : Index .moduleHandles) (extent : Extent) :
      extent.Holds contents cursor.bytes.toList { other with self := self } ↔
        extent.Holds contents cursor.bytes.toList other :=
    Extent.holds_congr rfl (hEntries other self extent.kind)
  simp only [foldlM_readTable_eq_ok hBounded hKinds]
  constructor
  · intro h
    obtain ⟨result, ⟨⟨hMagic, hVersion, -, hOrder, hKept, hFound⟩, rfl⟩, rfl⟩ := h
    have hNames : result.tableOrder = extents.map Extent.kind := hOrder
    have hAll (kind : TableKind) (hSize : 0 < { result with self := self }.size kind) :
        kind ∈ result.tableOrder := by
      rw [hNames]
      by_cases hKind : kind ∈ extents.map Extent.kind
      · exact hKind
      · rw [size, hEntries, hKept kind hKind, hEmpty] at hSize
        exact absurd hSize (Nat.lt_irrefl 0)
    have hFoundAll (extent : Extent) (hExtent : extent ∈ extents) :
        extent.Holds contents next.bytes.toList { result with self := self } :=
      (hHolds result self extent).mpr (hFound extent hExtent)
    exact ⟨⟨hMagic, hVersion, rfl, hOrder, hAll, hFoundAll⟩, rfl⟩
  · intro h
    obtain ⟨⟨rfl, rfl, rfl, hOrder, hAll, hFound⟩, rfl⟩ := h
    refine ⟨{ module with self := ⟨0⟩ }, ⟨⟨rfl, rfl, rfl, hOrder, ?_, ?_⟩, rfl⟩, rfl⟩
    · intro kind hKind
      rw [← hOrder] at hKind
      rw [hEntries, hEmpty]
      apply Array.eq_empty_of_size_eq_zero
      exact Nat.eq_zero_of_not_pos fun hSize => hKind (hAll kind hSize)
    · intro extent hExtent
      exact (hHolds module _ extent).mpr (hFound extent hExtent)

end Module

end MoveModule
