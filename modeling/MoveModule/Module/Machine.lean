import MoveModule.Binary.Machine
import MoveModule.Module.Decode

/-! How a machine reads a module. The numbers of a directory come from the file, and the machine
adds them up in words and cuts the tables out with what comes of it. -/
namespace MoveModule.Module

open Binary

namespace Machine

open Binary.Machine (Run add cut)

/-- What a machine does like any reader. -/
def plain {α : Type} (read : ReadModule α) : Run ModuleError α :=
  Read.mapError .refusal read

/-- Reads `count` entries of the directory. The end of each table is added up for the next
one. -/
def readExtents : (count expected : Nat) → List Extent → Run ModuleError (List Extent × Nat)
  | 0, expected, sofar => return (sofar.reverse, expected)
  | count + 1, expected, sofar => do
      let start ← plain (readPart Read.offset)
      let byte ← plain (readPart Read.byte)
      match TableKind.ofByte? byte with
      | none => throw (.refusal (.unknownTableKind byte start))
      | some kind =>
          if sofar.any fun extent => extent.kind == kind then
            throw (.refusal (.duplicateTable kind))
          let offset ← plain (readPart (Read.bounded 0xFFFFFFFF))
          let length ← plain (readPart (Read.bounded 0xFFFFFFFF))
          if offset ≠ expected then
            throw (.refusal (.nonContiguousTable kind expected offset))
          readExtents count (← add offset length) (⟨kind, offset, length⟩ :: sofar)

def readDirectory : Run ModuleError (List Extent × Nat) := do
  let count ← plain (readPart Read.count)
  readExtents count 0 []

/-- The table of an extent, in a slice that is cut out for it. -/
def readTable (contents : Nat) (module : Module) (extent : Extent) : Run ModuleError Module := do
  let start ← add contents extent.offset
  let stop ← add start extent.length
  let cursor ← get
  if cursor.bytes.size < stop then
    throw (.refusal (.tableOutOfBounds extent.kind extent.offset extent.length))
  let body ← cut cursor.bytes start stop
  match Read.every (extent.kind.entryCodec.read module.version) ⟨body, cursor.base + start, 0⟩ with
  | .error error _ => throw (.refusal (.decode error))
  | .ok entries _ =>
      let filled := module.withEntries extent.kind entries
      return { filled with tableOrder := filled.tableOrder ++ [extent.kind] }

/-- A whole module. -/
def read : Run ModuleError Module := do
  let (magic, version) ← plain readHeader
  let (extents, stop) ← readDirectory
  let contents := (← get).position
  let module ← extents.foldlM (readTable contents) { empty version with magic := magic }
  let last ← add contents stop
  modify fun cursor => cursor.seek last
  let self ← plain (readPart (Index.codec.read version))
  let cursor ← get
  if cursor.hasMore then throw (.refusal (.trailingBytes cursor.offset))
  return { module with self := self }

/-- The module of a file. -/
def decode (bytes : List UInt8) : Except (Stop ModuleError) Module :=
  match read (Cursor.ofBytes bytes) with
  | .ok module _ => .ok module
  | .error reason _ => .error reason

end Machine

end MoveModule.Module
