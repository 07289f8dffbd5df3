import MoveModule.Module.Layout
import MoveModule.Text.Hex

/-! How a module is read. The whole directory is read before any table. -/
namespace MoveModule

open Binary

/-- Why bytes are not the file of a module. -/
inductive ModuleError
  | decode (source : DecodeError)
  | invalidMagic (magic : Block 4)
  | unsupportedVersion (version : UInt32)
  | unknownTableKind (byte : UInt8) (offset : Nat)
  | duplicateTable (kind : TableKind)
  /-- A table does not start where the one before it ends. -/
  | nonContiguousTable (kind : TableKind) (expected offset : Nat)
  | tableOutOfBounds (kind : TableKind) (offset length : Nat)
  | trailingBytes (offset : Nat)
deriving DecidableEq

def ModuleError.message : ModuleError → String
  | .decode source => s!"Decode error: {source.message}"
  | .invalidMagic magic =>
      s!"Invalid magic number: expected {Text.Hex.encode Module.magicBytes.val}, got " ++
        Text.Hex.encode magic.val
  | .unsupportedVersion version => s!"Unsupported version: {version} (supported: 5..=6)"
  | .unknownTableKind byte offset =>
      s!"Unknown table kind {Text.hexByte byte} at offset {offset}"
  | .duplicateTable kind => s!"Duplicate table: {kind.display}"
  | .nonContiguousTable kind expected offset =>
      s!"Table {kind.display} should start at {expected}, directory says {offset}"
  | .tableOutOfBounds kind offset length =>
      s!"Table {kind.display} at {offset}+{length} extends past the end of the module"
  | .trailingBytes offset => s!"Trailing bytes after module end at offset {offset}"

/-- The messages of the errors behind this one, the nearest first. -/
def ModuleError.sources : ModuleError → List String
  | .decode source => [source.message]
  | _ => []

/-- What the directory says about a table, as it is read. -/
structure Extent where
  kind : TableKind
  offset : Nat
  length : Nat
deriving DecidableEq, Repr

namespace Module

abbrev ReadModule (α : Type) := ReadOr ModuleError α

def readPart {α : Type} (read : Read α) : ReadModule α :=
  Read.mapError .decode read

/-- The magic bytes and the version. -/
def readHeader : ReadModule (Block 4 × UInt32) := do
  let magic ← readPart (Read.block 4)
  if magic ≠ magicBytes then throw (.invalidMagic magic)
  let version := UInt32.ofNat (← readPart (Read.littleEndian 4))
  if !isSupported version then throw (.unsupportedVersion version)
  return (magic, version)

/-- Reads `count` entries of the directory. The next table has to start at
`expected`, and the entries before it are held from the last back. -/
def readExtents : (count expected : Nat) → List Extent → ReadModule (List Extent × Nat)
  | 0, expected, sofar => return (sofar.reverse, expected)
  | count + 1, expected, sofar => do
      let start ← readPart Read.offset
      let byte ← readPart Read.byte
      match TableKind.ofByte? byte with
      | none => throw (.unknownTableKind byte start)
      | some kind =>
          if sofar.any fun extent => extent.kind == kind then throw (.duplicateTable kind)
          let offset ← readPart (Read.bounded 0xFFFFFFFF)
          let length ← readPart (Read.bounded 0xFFFFFFFF)
          if offset ≠ expected then throw (.nonContiguousTable kind expected offset)
          readExtents count (offset + length) (⟨kind, offset, length⟩ :: sofar)

/-- The directory, and where the last table ends. -/
def readDirectory : ReadModule (List Extent × Nat) := do
  let count ← readPart Read.count
  readExtents count 0 []

/-- Reads the table of an extent into a module. Tables lie after the place where
the first one starts. -/
def readTable (contents : Nat) (module : Module) (extent : Extent) : ReadModule Module :=
  fun cursor =>
    let start := contents + extent.offset
    let stop := start + extent.length
    if cursor.bytes.size < stop then
      .error (.tableOutOfBounds extent.kind extent.offset extent.length) cursor
    else
      let read := Read.every (extent.kind.entryCodec.read module.version)
      match read (cursor.window start stop) with
      | .error error _ => .error (.decode error) cursor
      | .ok entries _ =>
          let filled := module.withEntries extent.kind entries
          .ok { filled with tableOrder := filled.tableOrder ++ [extent.kind] } cursor

/-- Reads a whole module. -/
def read : ReadModule Module := do
  let (magic, version) ← readHeader
  let (extents, stop) ← readDirectory
  let contents := (← get).position
  let module ← extents.foldlM (readTable contents) { empty version with magic := magic }
  modify fun cursor => cursor.seek (contents + stop)
  let self ← readPart (Index.codec.read version)
  let cursor ← get
  if cursor.hasMore then throw (.trailingBytes cursor.offset)
  return { module with self := self }

/-- The module of a file. -/
def decode (bytes : List UInt8) : Except ModuleError Module :=
  match read (Cursor.ofBytes bytes) with
  | .ok module _ => .ok module
  | .error error _ => .error error

end Module

end MoveModule
