import MoveModule.Binary.Codec
import MoveModule.Json.Form
import MoveModule.Text.Hex

/-! Account addresses, and other rows of bytes whose length is fixed. -/
namespace MoveModule

/-- Exactly `count` bytes. -/
abbrev Block (count : Nat) : Type :=
  { bytes : List UInt8 // bytes.length = count }

namespace Block

def ofBytes? {count : Nat} (bytes : List UInt8) : Option (Block count) :=
  if h : bytes.length = count then some ⟨bytes, h⟩ else none

end Block

/-- Bytes as hexadecimal digits. -/
def Json.Form.hex : Json.Form (List UInt8) :=
  Json.Form.text.filterMap (fun text => (Text.Hex.decode text).toOption) Text.Hex.encode

/-- A row of bytes of fixed length as hexadecimal digits. -/
def Json.Form.block (count : Nat) : Json.Form (Block count) :=
  Json.Form.hex.filterMap Block.ofBytes? Subtype.val

/-- An account address. -/
structure Address where
  bytes : Block 32
deriving DecidableEq

namespace Address

def display (address : Address) : String :=
  "0x" ++ Text.Hex.encode address.bytes.val

def codec : Binary.Codec Address :=
  (Binary.Codec.block 32).map Address.mk bytes

def form : Json.Form Address :=
  (Json.Form.block 32).map Address.mk bytes

/-- An address as the array of its bytes, which is how a constant is written. -/
def bytesForm : Json.Form Address :=
  (Json.Form.list Json.Form.uint8).filterMap
    (fun bytes => (Block.ofBytes? bytes).map Address.mk) (fun address => address.bytes.val)

end Address

end MoveModule
