import MoveModule.Binary.Codec
import MoveModule.Json.Form

/-! Sets of abilities. There are four abilities, each with a bit of its own. A
document may set other bits as well. They are written as they are, and no reader
accepts the bytes. -/
namespace MoveModule

structure AbilitySet where
  bits : UInt8
deriving DecidableEq, Repr

namespace AbilitySet

/-- The abilities and their bits. -/
def abilities : List (UInt8 × String) :=
  [(1, "copy"), (2, "drop"), (4, "store"), (8, "key")]

/-- A set with no bits beyond the four abilities. -/
def ofBits? (bits : UInt8) : Option AbilitySet :=
  if bits < 16 then some ⟨bits⟩ else none

/-- Whether the set has all abilities of a mask. -/
def has (set : AbilitySet) (mask : UInt8) : Bool :=
  set.bits &&& mask == mask

/-- The names of the abilities in the set. -/
def display (set : AbilitySet) : String :=
  ", ".intercalate ((abilities.filter fun ability => set.has ability.1).map Prod.snd)

def codec : Binary.Codec AbilitySet :=
  .tag "ability set" bits ofBits?

def form : Json.Form AbilitySet :=
  Json.Form.uint8.map AbilitySet.mk bits

end AbilitySet

end MoveModule
