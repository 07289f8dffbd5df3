import MoveModule.Binary.Read

/-! Reading on a machine. Places and numbers are words of 64 bits there, and a part of the bytes
is a slice, which has to lie inside them. A sum that is no word and a slice that does not lie
inside stop the program, which is something else than to refuse the bytes. -/
namespace MoveModule.Binary

/-- What stops a program. -/
inductive Fault
  /-- The sum of two places is no word. -/
  | overflow (first second : Nat)
  /-- A slice does not lie inside bytes of this size. -/
  | slice (start stop size : Nat)
deriving DecidableEq, Repr

/-- Why a run gives no value: the bytes are refused, or the program stops. -/
inductive Stop (ε : Type)
  | refusal (error : ε)
  | fault (fault : Fault)
deriving DecidableEq, Repr

namespace Machine

/-- A read whose program may stop. -/
abbrev Run (ε α : Type) := ReadOr (Stop ε) α

section

variable {ε : Type}

/-- The sum of two places. -/
def add (first second : Nat) : Run ε Nat :=
  if first + second < UInt64.size then return first + second
  else throw (.fault (.overflow first second))

/-- The bytes between two places. -/
def cut (bytes : Array UInt8) (start stop : Nat) : Run ε (Array UInt8) :=
  if start ≤ stop ∧ stop ≤ bytes.size then return bytes.extract start stop
  else throw (.fault (.slice start stop bytes.size))

end

/-- The place of the next byte in the whole input. -/
def offset : Run DecodeError Nat := do
  let cursor ← get
  add cursor.base cursor.position

/-- The next byte. The place for an error is added up in any case. -/
def byte : Run DecodeError UInt8 := do
  let cursor ← get
  let place ← offset
  match cursor.bytes[cursor.position]? with
  | none => throw (.refusal (.unexpectedEnd place))
  | some value =>
      set (cursor.seek (← add cursor.position 1))
      return value

/-- The next `count` bytes. There is no slice of them before it is known that so many remain,
but none at all remain at the end of the bytes and behind it alike. -/
def slice (count : Nat) : Run DecodeError (List UInt8) := do
  let cursor ← get
  if cursor.remaining < count then throw (.refusal (.unexpectedEnd (← offset)))
  let stop ← add cursor.position count
  let part ← cut cursor.bytes cursor.position stop
  set (cursor.seek stop)
  return part.toList

/-- A number in `count` bytes, the lowest first. -/
def littleEndian (count : Nat) : Run DecodeError Nat := do
  return LittleEndian.value (← slice count)

section

variable {ε : Type} (byte : ReadOr ε UInt8) (refuse : DecodeError → ε)

/-- The bits of a group moved to their place in a word. -/
def shifted (place : Nat) (group : UInt8) : UInt64 :=
  (group &&& 0x7F).toUInt64 <<< UInt64.ofNat (7 * place)

/-- Adds the groups of a number to those already read, at most `groups` of them. Without a
last one among them there is no number. -/
def addGroups (start : Nat) : (groups : Nat) → (sofar : UInt64) → ReadOr ε (Option UInt64)
  | 0, _ => return none
  | groups + 1, sofar => do
      let place := Read.maxGroups - (groups + 1)
      let group ← byte
      if place = Read.maxGroups - 1 ∧ group > 1 then throw (refuse (.malformedUleb128 start))
      let value := sofar ||| shifted place group
      if group &&& 0x80 = 0 then
        if group = 0 ∧ place > 0 then throw (refuse (.nonCanonicalUleb128 start))
        return some value
      addGroups start groups value

/-- The word whose groups start at `start`. -/
def word (start : Nat) : ReadOr ε UInt64 := do
  match ← addGroups byte refuse start Read.maxGroups 0 with
  | some value => return value
  | none => throw (refuse (.malformedUleb128 start))

end

/-- A number of at most 64 bits in groups of seven. -/
def uleb128 : Run DecodeError Nat := do
  return (← word byte .refusal (← offset)).toNat

/-- A number in groups of seven bits that is at most `max`. -/
def bounded (max : Nat) : Run DecodeError Nat := do
  let start ← offset
  let value ← uleb128
  if value > max then throw (.refusal (.valueOutOfRange value max start))
  return value

/-- A number of sixteen bits in groups of seven. -/
def index : Run DecodeError UInt16 := do
  return UInt16.ofNat (← bounded 65535)

/-- How many items follow, each of which takes a byte or more. -/
def count : Run DecodeError Nat := do
  let max := (← get).remaining - 1
  let start ← offset
  let value ← uleb128
  if value > max ∧ value > 0 then throw (.refusal (.valueOutOfRange value max start))
  return value

/-- Bytes with their number in front. -/
def byteString : Run DecodeError (List UInt8) := do
  let start ← offset
  let length ← uleb128
  if length > (← get).remaining then throw (.refusal (.unexpectedEnd start))
  slice length

/-- A text with the number of its bytes in front. -/
def text : Run DecodeError String := do
  let start ← offset
  let bytes ← byteString
  match Text.ofBytes? bytes with
  | some text => return text
  | none => throw (.refusal (.invalidUtf8 start))

/-- A byte that says yes or no. -/
def flag (what : String) : Run DecodeError Bool := do
  let start ← offset
  match ← byte with
  | 0 => return false
  | 1 => return true
  | other => throw (.refusal (.invalidTag what other start))

/-- The groups of a word, the lowest first. -/
def emit (value : UInt64) : List UInt8 :=
  let group := (value &&& 0x7F).toUInt8
  let high := value >>> 7
  if high = 0 then [group] else (group ||| 0x80) :: emit high
termination_by value.toNat
decreasing_by
  rename_i hHigh
  have hSome : (value >>> 7).toNat ≠ 0 := fun h => hHigh (UInt64.toNat_inj.mp h)
  have hDiv : (value >>> 7).toNat = value.toNat / 128 := by
    rw [UInt64.toNat_shiftRight]
    exact Nat.shiftRight_eq_div_pow _ 7
  omega

end Machine

end MoveModule.Binary
