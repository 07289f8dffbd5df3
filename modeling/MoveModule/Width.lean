import MoveModule.Binary.Codec
import MoveModule.Json.Form

/-! The widths of unsigned integers. Three of them came with version 6 of the
format, and a file of an earlier version that has them is refused. -/
namespace MoveModule

inductive Width
  | w8
  | w16
  | w32
  | w64
  | w128
  | w256
deriving DecidableEq, Repr

namespace Width

def byteCount : Width → Nat
  | w8 => 1
  | w16 => 2
  | w32 => 4
  | w64 => 8
  | w128 => 16
  | w256 => 32

/-- The integers of a width. -/
abbrev Value (width : Width) : Type :=
  BitVec (8 * width.byteCount)

/-- The name of the integer type. -/
def name : Width → String
  | w8 => "U8"
  | w16 => "U16"
  | w32 => "U32"
  | w64 => "U64"
  | w128 => "U128"
  | w256 => "U256"

def all : List Width :=
  [w8, w16, w32, w64, w128, w256]

/-- The byte that stands for the integer type. -/
def tag : Width → UInt8
  | w8 => 0x02
  | w64 => 0x03
  | w128 => 0x04
  | w16 => 0x0D
  | w32 => 0x0E
  | w256 => 0x0F

def ofTag? (byte : UInt8) : Option Width :=
  all.find? fun width => width.tag == byte

/-- Widths that earlier versions than 6 do not have. -/
def isNew : Width → Bool
  | w16 | w32 | w256 => true
  | w8 | w64 | w128 => false

/-- Whether a module that declares this version may use the width. -/
def allowedIn (width : Width) (version : UInt32) : Bool :=
  !width.isNew || 6 ≤ version

/-- An integer in its bytes, the lowest first. -/
def codec (width : Width) : Binary.Codec width.Value :=
  Binary.Codec.word width.byteCount

/-- An integer as a number. The widest integers are too large for that and are the
array of their bytes, the lowest first. -/
def form : (width : Width) → Json.Form width.Value
  | w256 =>
      (Json.Form.list Json.Form.uint8).filterMap
        (fun bytes => if bytes.length = 32 then
          some (BitVec.ofNat 256 (Binary.LittleEndian.value bytes)) else none)
        (fun value => Binary.LittleEndian.encode 32 value.toNat)
  | width => Json.Form.bitVec (8 * width.byteCount)

end Width

end MoveModule
