import MoveModule.Module.Basic

/-! How a module is written. Its file starts with the magic bytes and the version,
goes on with a directory of the tables and then the tables themselves without
gaps, and ends with the handle of the module itself. -/
namespace MoveModule

open Binary

/-- What the directory says about a table. The offset counts from the start of the
first table. -/
structure TableEntry where
  kind : TableKind
  offset : UInt32
  length : UInt32
deriving DecidableEq, Repr

namespace TableEntry

def form : Json.Form TableEntry :=
  ((Json.Fields.required "kind" TableKind.form).and
    ((Json.Fields.required "offset" Json.Form.uint32).and
    (Json.Fields.required "length" Json.Form.uint32))).form.map
    (fun (kind, offset, length) => ⟨kind, offset, length⟩)
    (fun entry => (entry.kind, entry.offset, entry.length))

end TableEntry

namespace Module

/-- Adds kinds to an order, each only once and only if it is wanted. -/
def addKinds (wanted : TableKind → Bool) (order kinds : List TableKind) : List TableKind :=
  kinds.foldl (fun sofar kind =>
    if wanted kind && !sofar.contains kind then sofar ++ [kind] else sofar) order

/-- The tables in the order in which they are written. Recorded tables come first,
even empty ones, and then all others that are not empty. -/
def emissionOrder (module : Module) : List TableKind :=
  addKinds (fun kind => 0 < module.size kind) (addKinds (fun _ => true) [] module.tableOrder)
    TableKind.canonicalOrder

/-- The bytes of a table. -/
def body (module : Module) (kind : TableKind) : List UInt8 :=
  (module.entries kind).toList.flatMap kind.entryCodec.write

/-- The tables that are written, with their bytes. -/
def bodies (module : Module) : List (TableKind × List UInt8) :=
  module.emissionOrder.map fun kind => (kind, module.body kind)

/-- The directory of tables that start at a given offset and follow one another. -/
def directoryFrom (offset : Nat) : List (TableKind × List UInt8) → List UInt8
  | [] => []
  | (kind, body) :: rest =>
      kind.byte :: (Uleb128.encode offset ++ Uleb128.encode body.length ++
        directoryFrom (offset + body.length) rest)

/-- The entries of a directory of tables that start at a given offset. -/
def layoutFrom (offset : UInt32) : List (TableKind × List UInt8) → List TableEntry
  | [] => []
  | (kind, body) :: rest =>
      let length := UInt32.ofNat body.length
      ⟨kind, offset, length⟩ :: layoutFrom (offset + length) rest

/-- What the directory says when the module is written. -/
def layout (module : Module) : List TableEntry :=
  layoutFrom 0 module.bodies

/-- The file of the module. -/
def encode (module : Module) : List UInt8 :=
  let bodies := module.bodies
  module.magic.val ++ LittleEndian.encode 4 module.version.toNat ++
    Uleb128.encode bodies.length ++ directoryFrom 0 bodies ++ bodies.flatMap Prod.snd ++
    Index.codec.write module.self

end Module

end MoveModule
