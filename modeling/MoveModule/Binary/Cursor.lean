/-! A place in a byte string that is being read. The bytes may be a part cut out
of a longer input; `base` says where in that input they start, so that every
place can be reported as a place in the input. -/
namespace MoveModule.Binary

structure Cursor where
  bytes : Array UInt8
  base : Nat
  position : Nat
deriving DecidableEq, Repr

namespace Cursor

/-- The start of a byte string. -/
def ofBytes (bytes : List UInt8) : Cursor :=
  ⟨bytes.toArray, 0, 0⟩

/-- Where the next byte stands in the whole input. -/
def offset (cursor : Cursor) : Nat :=
  cursor.base + cursor.position

/-- How many bytes are left. A cursor that was moved past the end has none. -/
def remaining (cursor : Cursor) : Nat :=
  cursor.bytes.size - cursor.position

def hasMore (cursor : Cursor) : Bool :=
  cursor.position < cursor.bytes.size

/-- The same bytes at another place, which may lie past the end. -/
def seek (cursor : Cursor) (position : Nat) : Cursor :=
  { cursor with position := position }

def advance (cursor : Cursor) (count : Nat) : Cursor :=
  cursor.seek (cursor.position + count)

/-- The start of the part between two places. -/
def window (cursor : Cursor) (start stop : Nat) : Cursor :=
  ⟨cursor.bytes.extract start stop, cursor.base + start, 0⟩

/-- The next `count` bytes, or as many as there are. -/
def ahead (cursor : Cursor) (count : Nat) : List UInt8 :=
  (cursor.bytes.extract cursor.position (cursor.position + count)).toList

theorem length_ahead (cursor : Cursor) {count : Nat} (h : count ≤ cursor.remaining) :
    (cursor.ahead count).length = count := by
  simp only [remaining] at h
  simp only [ahead, Array.length_toList, Array.size_extract]
  omega

/-- The bytes that are still to be read. Everything a read does can be said in
terms of this list. -/
def rest (cursor : Cursor) : List UInt8 :=
  cursor.bytes.toList.drop cursor.position

@[simp]
theorem rest_ofBytes (bytes : List UInt8) : (ofBytes bytes).rest = bytes := by
  simp [rest, ofBytes]

@[simp]
theorem rest_advance (cursor : Cursor) (count : Nat) :
    (cursor.advance count).rest = cursor.rest.drop count := by
  simp [rest, advance, seek]

theorem length_rest (cursor : Cursor) : cursor.rest.length = cursor.remaining := by
  simp [rest, remaining]

end Cursor

end MoveModule.Binary
