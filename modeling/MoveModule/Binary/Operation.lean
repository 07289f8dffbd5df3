import MoveModule.Binary.Machine

/-! A reader in the hands of a program. The program may ask it for anything in any order, move it
to any place, and go on after bytes were refused. -/
namespace MoveModule.Binary

/-- What a reader is asked for. -/
inductive Operation
  | position
  | offset
  | remaining
  | hasMore
  | seek (position : Nat)
  | byte
  /-- A number in some bytes, the lowest first. -/
  | littleEndian (size : Nat) (positive : 0 < size)
  /-- The next bytes: a slice of them, a copy, or an array of this size. -/
  | block (size : Nat)
  | uleb128
  | bounded (max : Nat)
  | index
  | count
  | byteString
  | text
  | flag (what : String)
deriving DecidableEq, Repr

/-- What a reader answers. -/
inductive Answer
  | done
  | number (value : Nat)
  | bytes (value : List UInt8)
  | text (value : String)
  | flag (value : Bool)
deriving DecidableEq, Repr

namespace Operation

def perform : Operation → Machine.Run DecodeError Answer
  | position => do return .number (← get).position
  | offset => do return .number (← Machine.offset)
  | remaining => do return .number (← get).remaining
  | hasMore => do return .flag (← get).hasMore
  | seek place => do
      modify fun cursor => cursor.seek place
      return .done
  | byte => do return .number (← Machine.byte).toNat
  | littleEndian size _ => do return .number (← Machine.littleEndian size)
  | block size => do return .bytes (← Machine.slice size)
  | uleb128 => do return .number (← Machine.uleb128)
  | bounded max => do return .number (← Machine.bounded max)
  | index => do return .number (← Machine.index).toNat
  | count => do return .number (← Machine.count)
  | byteString => do return .bytes (← Machine.byteString)
  | text => do return .text (← Machine.text)
  | flag what => do return .flag (← Machine.flag what)

/-- Performs one operation after the other, also after those that are refused. For each there is
the answer or the error, and the place where it leaves the reader. -/
def run : List Operation → Cursor → Except Fault (List (Except DecodeError Answer × Cursor))
  | [], _ => .ok []
  | operation :: rest, cursor =>
      match operation.perform cursor with
      | .ok answer next => do return (.ok answer, next) :: (← run rest next)
      | .error (.refusal error) next => do return (.error error, next) :: (← run rest next)
      | .error (.fault fault) _ => .error fault

end Operation

end MoveModule.Binary
