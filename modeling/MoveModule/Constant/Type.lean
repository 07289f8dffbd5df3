import MoveModule.Signature

/-! The types of constants. They are the types of signatures that are made up of
booleans, integers, addresses and vectors alone, and they have the same bytes. -/
namespace MoveModule

open Binary

inductive ConstantType
  | bool
  | integer (width : Width)
  | address
  | vector (item : ConstantType)
deriving DecidableEq, Repr

namespace ConstantType

/-- How many bytes every value of the type takes, if they all take the same. -/
def fixedSize : ConstantType → Option Nat
  | bool => some 1
  | integer width => some width.byteCount
  | address => some 32
  | vector _ => none

/-- How many vectors are around the innermost type. -/
def layers : ConstantType → Nat
  | vector item => layers item + 1
  | _ => 0

/-- The type inside all vectors. -/
def leaf : ConstantType → ConstantType
  | vector item => leaf item
  | other => other

/-- A type inside `count` vectors. -/
def wrap : (count : Nat) → ConstantType → ConstantType
  | 0, item => item
  | count + 1, item => wrap count (vector item)

/-- The same type in a signature. -/
def token : ConstantType → SignatureToken
  | bool => .bool
  | integer width => .integer width
  | address => .address
  | vector item => .vector (token item)

/-- The name of a type in messages and type tags. -/
def display : ConstantType → String
  | bool => "Bool"
  | integer width => width.name
  | address => "Address"
  | vector item => "Vector(" ++ display item ++ ")"

def write : ConstantType → List UInt8
  | bool => [0x01]
  | integer width => [width.tag]
  | address => [0x05]
  | vector item => 0x0A :: write item

/-- Reads what follows the first byte of a type that starts at `start` and has `outer`
vectors around it. With one vector more it is read by `inner`. -/
def readTagged (version : UInt32) (inner : Read ConstantType) (outer start : Nat) :
    (tag : UInt8) → Read ConstantType
  | 0x01 => return wrap outer bool
  | 0x05 => return wrap outer address
  | 0x0A => inner
  | other => do
      match Width.ofTag? other with
      | some width =>
          if width.allowedIn version then return wrap outer (integer width)
          throw (.unsupportedInVersion "u16/u32/u256 constant" version start)
      | none => throw (.invalidTag "constant type" other start)

/-- Reads a type when `levels` of them may still be nested and `outer` vectors are
already around it. -/
def readWithin (version : UInt32) : (levels outer : Nat) → Read ConstantType
  | 0, _ => do throw (.signatureTooDeep maxTokenDepth (← Read.offset))
  | levels + 1, outer => do
      let start ← Read.offset
      readTagged version (readWithin version levels (outer + 1)) outer start (← Read.byte)

def codec : Codec ConstantType where
  write := write
  read version := readWithin version maxTokenDepth 0

def toJson : ConstantType → Json
  | bool => .text "Bool"
  | integer width => .text width.name
  | address => .text "Address"
  | vector item => .variant "Vector" (toJson item)

/-- The type of a name, of those that are not vectors. -/
def ofName? (name : String) : Option ConstantType :=
  match name with
  | "Bool" => some bool
  | "Address" => some address
  | other => (Width.all.find? fun width => width.name == other).map integer

def ofJson? : (levels : Nat) → Json → Option ConstantType
  | _, .string (some name) => ofName? name
  | levels + 1, .object [(some name, payload)] =>
      match name, payload with
      | "Vector", item => (ofJson? levels item).map vector
      | other, .null => ofName? other
      | _, _ => none
  | _, _ => none

def form : Json.Form ConstantType where
  write := toJson
  read := ofJson?

end ConstantType

end MoveModule
