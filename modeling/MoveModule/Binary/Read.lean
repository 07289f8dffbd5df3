import MoveModule.Binary.Cursor
import MoveModule.Binary.DecodeError
import MoveModule.Binary.LittleEndian
import MoveModule.Text.Utf8

/-! Reading from a cursor. A read either gives a value or says what is wrong, and
in both cases leaves the cursor where it stopped looking. -/
namespace MoveModule.Binary

/-- A read that fails with an error of type `ε`. -/
abbrev ReadOr (ε α : Type) := EStateM ε Cursor α

abbrev Read (α : Type) := ReadOr DecodeError α

namespace Read

/-- The same read with its errors seen as errors of another type. -/
def mapError {ε δ α : Type} (f : ε → δ) (read : ReadOr ε α) : ReadOr δ α := fun cursor =>
  match read cursor with
  | .ok value next => .ok value next
  | .error error next => .error (f error) next

/-- The place of the next byte in the whole input. -/
def offset : Read Nat := fun cursor => .ok cursor.offset cursor

def remaining : Read Nat := fun cursor => .ok cursor.remaining cursor

def byte : Read UInt8 := fun cursor =>
  match cursor.bytes[cursor.position]? with
  | some value => .ok value (cursor.advance 1)
  | none => .error (.unexpectedEnd cursor.offset) cursor

/-- The next `count` bytes, or none of them. -/
def block (count : Nat) : Read { bytes : List UInt8 // bytes.length = count } := fun cursor =>
  if h : count ≤ cursor.remaining then
    .ok ⟨cursor.ahead count, cursor.length_ahead h⟩ (cursor.advance count)
  else .error (.unexpectedEnd cursor.offset) cursor

/-- The next `count` bytes as a list. -/
def take (count : Nat) : Read (List UInt8) := do
  return (← block count).val

/-- A number in `count` bytes, the lowest first. -/
def littleEndian (count : Nat) : Read Nat := do
  return LittleEndian.value (← take count)

/-- The most groups that a number may have. Ten of them hold 70 bits, of which a
number may use 64, so the tenth holds one bit. -/
def maxGroups : Nat := 10

/-- The last groups of a number that starts at `start`, at most `groups` of them. The
last group is not zero unless it is the only one. -/
def uleb128Groups (start : Nat) : (groups : Nat) → Read Nat
  | 0 => throw (.malformedUleb128 start)
  | groups + 1 => do
      let group ← byte
      if groups = 0 ∧ group > 1 then throw (.malformedUleb128 start)
      if group < 128 then
        if group = 0 ∧ groups + 1 < maxGroups then throw (.nonCanonicalUleb128 start)
        return group.toNat
      return group.toNat - 128 + 128 * (← uleb128Groups start groups)

/-- A number of at most 64 bits in groups of seven, in its only form. -/
def uleb128 : Read Nat := do
  uleb128Groups (← offset) maxGroups

/-- A number in groups of seven bits that is at most `max`. -/
def bounded (max : Nat) : Read Nat := do
  let start ← offset
  let value ← uleb128
  if value > max then throw (.valueOutOfRange value max start)
  return value

/-- A number of sixteen bits in groups of seven. -/
def index : Read UInt16 := do
  return UInt16.ofNat (← bounded 65535)

/-- How many items follow, each of which takes a byte or more. Unless it is zero, it
may not exceed the bytes that are left in front of it less one, whatever its own
width is. So a count of one byte is at most the number of bytes behind it, and a
wider one may exceed that number by all its bytes but the first. -/
def count : Read Nat := do
  let max := (← remaining) - 1
  let start ← offset
  let value ← uleb128
  if value > max ∧ value > 0 then throw (.valueOutOfRange value max start)
  return value

/-- Bytes with their number in front. -/
def byteString : Read (List UInt8) := do
  let start ← offset
  let length ← uleb128
  if length > (← remaining) then throw (.unexpectedEnd start)
  take length

/-- A text with the number of its bytes in front. -/
def text : Read String := do
  let start ← offset
  let bytes ← byteString
  match Text.ofBytes? bytes with
  | some text => return text
  | none => throw (.invalidUtf8 start)

/-- A byte that says yes or no. -/
def flag (what : String) : Read Bool := do
  let start ← offset
  match ← byte with
  | 0 => return false
  | 1 => return true
  | other => throw (.invalidTag what other start)

/-- Adds `count` items to those already read, which are held from the last back. -/
def timesOnto {α : Type} (read : Read α) : Nat → List α → Read (List α)
  | 0, sofar => fun cursor => .ok sofar.reverse cursor
  | count + 1, sofar => fun cursor =>
      match read cursor with
      | .ok item next => timesOnto read count (item :: sofar) next
      | .error error next => .error error next

/-- One item after the other, `count` of them. -/
def times {α : Type} (count : Nat) (read : Read α) : Read (List α) :=
  timesOnto read count []

/-- Adds items until no byte is left, and at most `limit` of them. -/
def everyOnto {α : Type} (read : Read α) : (limit : Nat) → Array α → Read (Array α)
  | 0, sofar => fun cursor => .ok sofar cursor
  | limit + 1, sofar => fun cursor =>
      if cursor.hasMore then
        match read cursor with
        | .ok item next => everyOnto read limit (sofar.push item) next
        | .error error next => .error error next
      else .ok sofar cursor

/-- One item after the other until no byte is left. An item takes a byte or more,
so there are no more of them than bytes. -/
def every {α : Type} (read : Read α) : Read (Array α) := fun cursor =>
  everyOnto read cursor.remaining #[] cursor

end Read

end MoveModule.Binary
