import MoveModule.Index
import MoveModule.Width

/-! The instructions of the machine by their first byte. The constructors stand in
the order of their bytes, which run from 1 without a gap. -/
namespace MoveModule

inductive Opcode
  | pop | ret | brTrue | brFalse | branch | ldU64 | ldConst | ldTrue | ldFalse | copyLoc | moveLoc
  | stLoc | mutBorrowLoc | immBorrowLoc | mutBorrowField | immBorrowField | call | pack | unpack
  | readRef | writeRef | add | sub | mul | mod | div | bitOr | bitAnd | xor | or | and | not | eq
  | neq | lt | gt | le | ge | abort | nop | existsGlobal | mutBorrowGlobal | immBorrowGlobal
  | moveFrom | moveTo | freezeRef | shl | shr | ldU8 | ldU128 | castU8 | castU64 | castU128
  | mutBorrowFieldGeneric | immBorrowFieldGeneric | callGeneric | packGeneric | unpackGeneric
  | existsGlobalGeneric | mutBorrowGlobalGeneric | immBorrowGlobalGeneric | moveFromGeneric
  | moveToGeneric | vecPack | vecLen | vecImmBorrow | vecMutBorrow | vecPushBack | vecPopBack
  | vecUnpack | vecSwap | ldU16 | ldU32 | ldU256 | castU16 | castU32 | castU256
deriving DecidableEq, Repr

/-- What follows the first byte of an instruction. -/
inductive OperandKind
  | nothing
  /-- The instruction to go on with. -/
  | target
  /-- A parameter or local, in one byte. -/
  | slot
  | integer (width : Width)
  | index (pool : Pool)
  /-- The type of the items of a vector, and how many of them there are. -/
  | items
deriving DecidableEq, Repr

namespace Opcode

/-- All opcodes in the order of their bytes. -/
def all : List Opcode :=
  [pop, ret, brTrue, brFalse, branch, ldU64, ldConst, ldTrue, ldFalse, copyLoc, moveLoc, stLoc,
   mutBorrowLoc, immBorrowLoc, mutBorrowField, immBorrowField, call, pack, unpack, readRef,
   writeRef, add, sub, mul, mod, div, bitOr, bitAnd, xor, or, and, not, eq, neq, lt, gt, le, ge,
   abort, nop, existsGlobal, mutBorrowGlobal, immBorrowGlobal, moveFrom, moveTo, freezeRef, shl,
   shr, ldU8, ldU128, castU8, castU64, castU128, mutBorrowFieldGeneric, immBorrowFieldGeneric,
   callGeneric, packGeneric, unpackGeneric, existsGlobalGeneric, mutBorrowGlobalGeneric,
   immBorrowGlobalGeneric, moveFromGeneric, moveToGeneric, vecPack, vecLen, vecImmBorrow,
   vecMutBorrow, vecPushBack, vecPopBack, vecUnpack, vecSwap, ldU16, ldU32, ldU256, castU16,
   castU32, castU256]

def byte (opcode : Opcode) : UInt8 :=
  UInt8.ofNat (opcode.ctorIdx + 1)

def ofByte? (byte : UInt8) : Option Opcode :=
  match byte.toNat with
  | 0 => none
  | place + 1 => all[place]?

/-- The name of an opcode in documents. -/
def name : Opcode → String
  | pop => "Pop" | ret => "Ret" | brTrue => "BrTrue" | brFalse => "BrFalse" | branch => "Branch"
  | ldU64 => "LdU64" | ldConst => "LdConst" | ldTrue => "LdTrue" | ldFalse => "LdFalse"
  | copyLoc => "CopyLoc" | moveLoc => "MoveLoc" | stLoc => "StLoc"
  | mutBorrowLoc => "MutBorrowLoc" | immBorrowLoc => "ImmBorrowLoc"
  | mutBorrowField => "MutBorrowField" | immBorrowField => "ImmBorrowField" | call => "Call"
  | pack => "Pack" | unpack => "Unpack" | readRef => "ReadRef" | writeRef => "WriteRef"
  | add => "Add" | sub => "Sub" | mul => "Mul" | mod => "Mod" | div => "Div" | bitOr => "BitOr"
  | bitAnd => "BitAnd" | xor => "Xor" | or => "Or" | and => "And" | not => "Not" | eq => "Eq"
  | neq => "Neq" | lt => "Lt" | gt => "Gt" | le => "Le" | ge => "Ge" | abort => "Abort"
  | nop => "Nop" | existsGlobal => "Exists" | mutBorrowGlobal => "MutBorrowGlobal"
  | immBorrowGlobal => "ImmBorrowGlobal" | moveFrom => "MoveFrom" | moveTo => "MoveTo"
  | freezeRef => "FreezeRef" | shl => "Shl" | shr => "Shr" | ldU8 => "LdU8" | ldU128 => "LdU128"
  | castU8 => "CastU8" | castU64 => "CastU64" | castU128 => "CastU128"
  | mutBorrowFieldGeneric => "MutBorrowFieldGeneric"
  | immBorrowFieldGeneric => "ImmBorrowFieldGeneric" | callGeneric => "CallGeneric"
  | packGeneric => "PackGeneric" | unpackGeneric => "UnpackGeneric"
  | existsGlobalGeneric => "ExistsGeneric" | mutBorrowGlobalGeneric => "MutBorrowGlobalGeneric"
  | immBorrowGlobalGeneric => "ImmBorrowGlobalGeneric" | moveFromGeneric => "MoveFromGeneric"
  | moveToGeneric => "MoveToGeneric" | vecPack => "VecPack" | vecLen => "VecLen"
  | vecImmBorrow => "VecImmBorrow" | vecMutBorrow => "VecMutBorrow" | vecPushBack => "VecPushBack"
  | vecPopBack => "VecPopBack" | vecUnpack => "VecUnpack" | vecSwap => "VecSwap"
  | ldU16 => "LdU16" | ldU32 => "LdU32" | ldU256 => "LdU256" | castU16 => "CastU16"
  | castU32 => "CastU32" | castU256 => "CastU256"

def ofName? (name : String) : Option Opcode :=
  all.find? fun opcode => opcode.name == name

/-- The name in capitals, with an underscore between its words. -/
def mnemonic (opcode : Opcode) : String :=
  opcode.name.toList.foldl (fun sofar c =>
    if c.isUpper && !sofar.isEmpty then (sofar.push '_').push c else sofar.push c.toUpper) ""

/-- Opcodes that earlier versions than 6 do not have. They are about the widths of
integers that came with it. -/
def isNew : Opcode → Bool
  | ldU16 | ldU32 | ldU256 | castU16 | castU32 | castU256 => true
  | _ => false

/-- Whether a module that declares this version may use the opcode. -/
def allowedIn (opcode : Opcode) (version : UInt32) : Bool :=
  !opcode.isNew || 6 ≤ version

def operand : Opcode → OperandKind
  | brTrue | brFalse | branch => .target
  | copyLoc | moveLoc | stLoc | mutBorrowLoc | immBorrowLoc => .slot
  | ldU8 => .integer .w8
  | ldU16 => .integer .w16
  | ldU32 => .integer .w32
  | ldU64 => .integer .w64
  | ldU128 => .integer .w128
  | ldU256 => .integer .w256
  | ldConst => .index .constants
  | call => .index .functionHandles
  | callGeneric => .index .functionInstantiations
  | pack | unpack | existsGlobal | mutBorrowGlobal | immBorrowGlobal | moveFrom | moveTo =>
      .index .structDefinitions
  | packGeneric | unpackGeneric | existsGlobalGeneric | mutBorrowGlobalGeneric
  | immBorrowGlobalGeneric | moveFromGeneric | moveToGeneric => .index .structInstantiations
  | mutBorrowField | immBorrowField => .index .fieldHandles
  | mutBorrowFieldGeneric | immBorrowFieldGeneric => .index .fieldInstantiations
  | vecLen | vecImmBorrow | vecMutBorrow | vecPushBack | vecPopBack | vecSwap =>
      .index .signatures
  | vecPack | vecUnpack => .items
  | _ => .nothing

theorem ofByte?_byte (opcode : Opcode) : ofByte? opcode.byte = some opcode := by
  cases opcode <;> rfl

theorem byte_of_ofByte? {source : UInt8} {opcode : Opcode} (h : ofByte? source = some opcode) :
    opcode.byte = source := by
  have hAll : ∀ n : Fin 256, ∀ found ∈ ofByte? (UInt8.ofFin n), found.byte = UInt8.ofFin n := by
    decide +kernel
  exact hAll source.toFin opcode h

end Opcode

end MoveModule
