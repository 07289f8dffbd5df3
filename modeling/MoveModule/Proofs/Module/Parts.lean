import Mathlib.Algebra.GroupWithZero.Nat
import MoveModule.Proofs.Module.Decode

/-! The parts into which the bytes of a file fall: what stands in front of the directory, the
directory, the tables one by one and what stands behind them. The directory says how long every
table is, so bytes can be cut in one way only. -/
namespace MoveModule

open Binary

/-- What is written shows where it ends, whatever stands behind it. -/
def PrefixFree {α : Type} (write : α → List UInt8) : Prop :=
  ∀ ⦃first second : α⦄ ⦃behind other : List UInt8⦄,
    write first ++ behind = write second ++ other → first = second ∧ behind = other

/-- The first byte of a number tells whether others follow. -/
theorem Binary.Uleb128.exists_encode_eq_cons (n : Nat) : ∃ byte rest, encode n = byte :: rest ∧
    (n < 128 ∧ byte.toNat = n ∧ rest = [] ∨
      128 ≤ n ∧ byte.toNat = n % 128 + 128 ∧ rest = encode (n / 128)) := by
  by_cases hLast : n < 128
  · refine ⟨_, _, encode_of_lt hLast, .inl ⟨hLast, ?_, rfl⟩⟩
    exact UInt8.toNat_ofNat_of_lt' (Nat.lt_trans hLast (by decide))
  · have hMore := Nat.le_of_not_lt hLast
    refine ⟨_, _, encode_of_le hMore, .inr ⟨hMore, ?_, rfl⟩⟩
    apply UInt8.toNat_ofNat_of_lt'
    change _ < 256
    omega

/-- A number shows where it ends by its last group. By strong induction, a group at a time from the
front of both numbers. -/
theorem Binary.Uleb128.prefixFree_encode : PrefixFree Uleb128.encode := by
  intro first second behind other h
  induction first using Nat.strongRecOn generalizing second with
  | ind first ih =>
      obtain ⟨byte, rest, hFirst, hFirstCase⟩ := exists_encode_eq_cons first
      obtain ⟨otherByte, otherRest, hSecond, hSecondCase⟩ := exists_encode_eq_cons second
      rw [hFirst, hSecond] at h
      obtain ⟨rfl, hRest⟩ := List.cons.inj h
      rcases hFirstCase with ⟨hSmall, hValue, rfl⟩ | ⟨hLarge, hValue, rfl⟩
      · rcases hSecondCase with ⟨-, hSame, rfl⟩ | ⟨-, hMore, -⟩
        · exact ⟨hValue.symm.trans hSame, hRest⟩
        · omega
      · rcases hSecondCase with ⟨hLast, hSame, -⟩ | ⟨-, hSame, rfl⟩
        · omega
        · obtain ⟨hHigh, hBehind⟩ := ih (first / 128) (by omega) hRest
          exact ⟨by omega, hBehind⟩

/-- As many items as are known to be there. -/
theorem PrefixFree.flatMap {α : Type} {write : α → List UInt8} (hWrite : PrefixFree write)
    {first second : List α} {behind other : List UInt8} (hLength : first.length = second.length)
    (h : first.flatMap write ++ behind = second.flatMap write ++ other) :
    first = second ∧ behind = other := by
  induction first generalizing second with
  | nil =>
      obtain rfl := List.eq_nil_of_length_eq_zero hLength.symm
      exact ⟨rfl, h⟩
  | cons item rest ih =>
      cases second with
      | nil => cases hLength
      | cons otherItem otherRest =>
          simp only [List.flatMap_cons, List.append_assoc] at h
          obtain ⟨rfl, hRest⟩ := hWrite h
          obtain ⟨rfl, hBehind⟩ := ih (Nat.succ.inj hLength) hRest
          exact ⟨rfl, hBehind⟩

/-- Rows of bytes whose lengths are known. -/
theorem flatten_append_inj {first second : List (List UInt8)} {behind other : List UInt8}
    (hLengths : first.map List.length = second.map List.length)
    (h : first.flatten ++ behind = second.flatten ++ other) : first = second ∧ behind = other := by
  induction first generalizing second with
  | nil =>
      obtain rfl := List.map_eq_nil_iff.mp hLengths.symm
      exact ⟨rfl, h⟩
  | cons row rest ih =>
      cases second with
      | nil => cases hLengths
      | cons otherRow otherRest =>
          obtain ⟨hLength, hRestLengths⟩ := List.cons.inj hLengths
          simp only [List.flatten_cons, List.append_assoc] at h
          obtain ⟨rfl, hRest⟩ := List.append_inj h hLength
          obtain ⟨rfl, hBehind⟩ := ih hRestLengths hRest
          exact ⟨rfl, hBehind⟩

namespace Extent

/-- An entry of the directory shows where it ends, since its kind is one byte and its numbers do. -/
theorem prefixFree_write : PrefixFree write := by
  intro first second behind other h
  simp only [write, List.cons_append, List.append_assoc] at h
  obtain ⟨hByte, hNumbers⟩ := List.cons.inj h
  obtain ⟨hOffset, hLength⟩ := Uleb128.prefixFree_encode hNumbers
  obtain ⟨hLength, hBehind⟩ := Uleb128.prefixFree_encode hLength
  have hKind : some first.kind = some second.kind := by
    rw [← TableKind.ofByte?_byte, ← TableKind.ofByte?_byte, hByte]
  rw [Extent.mk.injEq]
  exact ⟨⟨Option.some.inj hKind, hOffset, hLength⟩, hBehind⟩

/-- Tables that follow one another start behind all those before them. -/
theorem Chained.offset_eq {start stop place : Nat} {extents : List Extent} {extent : Extent}
    (h : Chained start extents stop) (hExtent : extents[place]? = some extent) :
    extent.offset = start + ((extents.take place).map Extent.length).sum := by
  induction extents generalizing start place with
  | nil => simp at hExtent
  | cons first rest ih =>
      obtain ⟨hFirst, hRest⟩ := h
      cases place with
      | zero =>
          obtain rfl := Option.some.inj hExtent
          exact hFirst
      | succ place =>
          rw [ih hRest hExtent, List.take_succ_cons, List.map_cons, List.sum_cons, Nat.add_assoc]

end Extent

/-- The parts of a file. They are bytes that nobody has looked into, but for the directory. -/
structure Parts where
  magic : Block 4
  version : Block 4
  directory : List Extent
  bodies : List (List UInt8)
  self : List UInt8
  /-- The directory has an entry for each table, with the number of its bytes. -/
  lengths : directory.map Extent.length = bodies.map List.length

namespace Parts

/-- The file that falls into these parts. -/
def bytes (parts : Parts) : List UInt8 :=
  parts.magic.val ++ (parts.version.val ++ (Uleb128.encode parts.directory.length ++
    (parts.directory.flatMap Extent.write ++ (parts.bodies.flatten ++ parts.self))))

/-- Bytes that fall into two rows of parts fall into the same ones. -/
theorem bytes_injective {first second : Parts} (h : first.bytes = second.bytes) :
    first = second := by
  obtain ⟨magic, version, directory, bodies, self, hLengths⟩ := first
  obtain ⟨otherMagic, otherVersion, otherDirectory, otherBodies, otherSelf, hOtherLengths⟩ := second
  simp only [bytes] at h
  obtain ⟨hMagic, h⟩ := List.append_inj h (magic.property.trans otherMagic.property.symm)
  obtain ⟨hVersion, h⟩ := List.append_inj h (version.property.trans otherVersion.property.symm)
  obtain ⟨hCount, h⟩ := Uleb128.prefixFree_encode h
  obtain ⟨hDirectory, h⟩ := Extent.prefixFree_write.flatMap hCount h
  have hRows : bodies.map List.length = otherBodies.map List.length := by
    rw [← hLengths, ← hOtherLengths, hDirectory]
  obtain ⟨hBodies, hSelf⟩ := flatten_append_inj hRows h
  rw [mk.injEq]
  exact ⟨Subtype.ext hMagic, Subtype.ext hVersion, hDirectory, hBodies, hSelf⟩

/-- A file falls into these parts and no others. -/
def Describes (parts : Parts) (file : List UInt8) : Prop :=
  ∀ other : Parts, other.bytes = file ↔ other = parts

theorem describes_bytes (parts : Parts) : parts.Describes parts.bytes :=
  fun _ => ⟨bytes_injective, congrArg bytes⟩

/-- Every table starts where those before it end. -/
def Contiguous (parts : Parts) : Prop :=
  ∀ place extent, parts.directory[place]? = some extent →
    extent.offset = ((parts.directory.take place).map Extent.length).sum

/-- Two files have tables of the same kinds in the same order, and all their parts are equal but
for the places and lengths of tables and for the bytes of tables of one kind. -/
structure AlikeBut (kind : TableKind) (first second : Parts) : Prop where
  magic : first.magic = second.magic
  version : first.version = second.version
  count : first.directory.length = second.directory.length
  kinds : first.directory.map Extent.kind = second.directory.map Extent.kind
  bodies : ∀ (place : Nat) (extent : Extent), first.directory[place]? = some extent →
    extent.kind ≠ kind → first.bodies[place]? = second.bodies[place]?
  self : first.self = second.self

end Parts

namespace Module

theorem map_length_extentsFrom (module : Module) (start : Nat) (kinds : List TableKind) :
    (module.extentsFrom start kinds).map Extent.length =
      (kinds.map module.body).map List.length := by
  induction kinds generalizing start with
  | nil => rfl
  | cons kind rest ih => rw [extentsFrom, List.map_cons, ih, List.map_cons, List.map_cons]

/-- The parts of the file of a module. -/
def parts (module : Module) : Parts where
  magic := module.magic
  version := ⟨LittleEndian.encode 4 module.version.toNat, LittleEndian.length_encode _ _⟩
  directory := module.extents
  bodies := module.emissionOrder.map module.body
  self := Index.codec.write module.self
  lengths := module.map_length_extentsFrom 0 module.emissionOrder

/-- The parts of a module are what its encoding is put together from. -/
theorem bytes_parts (module : Module) : module.parts.bytes = module.encode := by
  have hBodies : module.parts.bodies.flatten = module.emissionOrder.flatMap module.body :=
    List.flatMap_def.symm
  rw [encode_eq, Parts.bytes, header, directory, contents, hBodies]
  simp only [parts, List.append_assoc]

theorem describes_encode (module : Module) : module.parts.Describes module.encode :=
  module.bytes_parts ▸ module.parts.describes_bytes

/-- The tables of an encoding follow one another, each as long as its entry in the directory
says. -/
theorem contiguous_parts (module : Module) : module.parts.Contiguous := by
  intro place extent hExtent
  have hOffset := (module.chained_extentsFrom 0 module.emissionOrder).offset_eq hExtent
  rwa [Nat.zero_add] at hOffset

/-- The directory has the tables that are not empty, in the order in which they are written. -/
theorem map_kind_directory_parts (module : Module) :
    module.parts.directory.map Extent.kind = module.emissionOrder :=
  module.map_kind_extentsFrom 0 module.emissionOrder

/-- The table that the directory has at a place. -/
theorem getElem?_bodies_parts {module : Module} {place : Nat} {extent : Extent}
    (h : module.parts.directory[place]? = some extent) :
    module.emissionOrder[place]? = some extent.kind ∧
      module.parts.bodies[place]? = some (module.body extent.kind) := by
  have hKind : module.emissionOrder[place]? = some extent.kind := by
    rw [← map_kind_directory_parts, List.getElem?_map, h, Option.map_some]
  refine ⟨hKind, ?_⟩
  show (module.emissionOrder.map module.body)[place]? = _
  rw [List.getElem?_map, hKind, Option.map_some]

/-- Modules with the same entries in all tables but one have files that differ in this table. -/
theorem alikeBut_parts {first second : Module} {kind : TableKind}
    (hMagic : first.magic = second.magic) (hVersion : first.version = second.version)
    (hSelf : first.self = second.self) (hOrder : first.emissionOrder = second.emissionOrder)
    (hEntries : ∀ other ≠ kind, first.entries other = second.entries other) :
    Parts.AlikeBut kind first.parts second.parts := by
  have hKinds : first.parts.directory.map Extent.kind = second.parts.directory.map Extent.kind := by
    rw [map_kind_directory_parts, map_kind_directory_parts, hOrder]
  refine ⟨hMagic, ?_, ?_, hKinds, ?_, ?_⟩
  · simp only [parts, hVersion]
  · simpa using congrArg List.length hKinds
  · intro place extent hExtent hKind
    obtain ⟨hPlace, hBody⟩ := getElem?_bodies_parts hExtent
    have hSame : first.body extent.kind = second.body extent.kind := by
      rw [body, body, hEntries extent.kind hKind]
    rw [hBody, hSame]
    show _ = (second.emissionOrder.map second.body)[place]?
    rw [List.getElem?_map, ← hOrder, hPlace, Option.map_some]
  · simp only [parts, hSelf]

end Module

end MoveModule
