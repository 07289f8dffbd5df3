import MoveModule.Binary.Read
import MoveModule.Binary.Uleb128

/-! A codec is one form in bytes for the values of a type, given by how it is
written and how it is read back. Larger forms are put together from smaller
ones, so that what holds for the parts holds for the whole. Reading depends on
the version that the module declares; writing never does. -/
namespace MoveModule.Binary

structure Codec (α : Type) where
  write : α → List UInt8
  read : UInt32 → Read α

namespace Codec

variable {α β : Type}

/-- A value of one type in the form of another. -/
def map (codec : Codec α) (into : α → β) (back : β → α) : Codec β where
  write value := codec.write (back value)
  read version := do return into (← codec.read version)

/-- Two values, one after the other. -/
def pair (first : Codec α) (second : Codec β) : Codec (α × β) where
  write value := first.write value.1 ++ second.write value.2
  read version := do
    let a ← first.read version
    let b ← second.read version
    return (a, b)

/-- Two values of which the first decides the form of the second. -/
def andThen (first : Codec α) (second : α → Codec β) : Codec (α × β) where
  write value := first.write value.1 ++ (second value.1).write value.2
  read version := do
    let a ← first.read version
    let b ← (second a).read version
    return (a, b)

/-- A value that is there or not, which has to be known beforehand. -/
def when (present : Bool) (codec : Codec α) : Codec (Option α) where
  write
    | some value => codec.write value
    | none => []
  read version := do
    if present then return some (← codec.read version)
    return none

/-- A list with its length in front. -/
def list (codec : Codec α) : Codec (List α) where
  write items := Uleb128.encode items.length ++ items.flatMap codec.write
  read version := do
    let count ← Read.count
    Read.times count (codec.read version)

def byte : Codec UInt8 where
  write value := [value]
  read _ := Read.byte

/-- A byte that says yes or no, with the name it has in an error. -/
def flag (what : String) : Codec Bool where
  write value := [if value then 1 else 0]
  read _ := Read.flag what

/-- A byte out of a few that have a meaning, with the name it has in an error. -/
def tag (what : String) (encode : α → UInt8) (decode? : UInt8 → Option α) : Codec α where
  write value := [encode value]
  read _ := do
    let start ← Read.offset
    let value ← Read.byte
    match decode? value with
    | some meaning => return meaning
    | none => throw (.invalidTag what value start)

/-- Exactly `count` bytes. -/
def block (count : Nat) : Codec { bytes : List UInt8 // bytes.length = count } where
  write value := value.val
  read _ := Read.block count

/-- A number of `8 * count` bits, the lowest byte first. -/
def word (count : Nat) : Codec (BitVec (8 * count)) where
  write value := LittleEndian.encode count value.toNat
  read _ := do return BitVec.ofNat (8 * count) (← Read.littleEndian count)

/-- A number of sixteen bits in groups of seven. -/
def index : Codec UInt16 where
  write value := Uleb128.encode value.toNat
  read _ := Read.index

/-- A number of 64 bits in groups of seven. -/
def uleb128 : Codec UInt64 where
  write value := Uleb128.encode value.toNat
  read _ := do return UInt64.ofNat (← Read.uleb128)

/-- Bytes with their number in front. -/
def byteString : Codec (List UInt8) where
  write bytes := Uleb128.encode bytes.length ++ bytes
  read _ := Read.byteString

end Codec

end MoveModule.Binary
