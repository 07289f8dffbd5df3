import MoveModule.Text.Quoted

/-! The reasons for which bytes are refused. Each names the place in the whole
input that the refusal is about. -/
namespace MoveModule.Binary

inductive DecodeError
  /-- The input ends inside an item. -/
  | unexpectedEnd (offset : Nat)
  /-- A number does not fit in 64 bits. -/
  | malformedUleb128 (offset : Nat)
  /-- A number is written with groups it does not need. -/
  | nonCanonicalUleb128 (offset : Nat)
  /-- A number is above what its place allows. -/
  | valueOutOfRange (value max offset : Nat)
  | invalidUtf8 (offset : Nat)
  /-- A text breaks the grammar of identifiers. The place is its length field. -/
  | invalidIdentifier (name : String) (offset : Nat)
  | invalidOpcode (byte : UInt8) (offset : Nat)
  | invalidSignatureToken (byte : UInt8) (offset : Nat)
  /-- Types are nested more than `max` deep. -/
  | signatureTooDeep (max offset : Nat)
  /-- A one-byte field holds a value without meaning. -/
  | invalidTag (what : String) (value : UInt8) (offset : Nat)
  /-- A construct is newer than the version the module declares. -/
  | unsupportedInVersion (what : String) (version : UInt32) (offset : Nat)
deriving DecidableEq, Repr

namespace DecodeError

def message : DecodeError → String
  | unexpectedEnd offset => s!"Unexpected end of input at offset {offset}"
  | malformedUleb128 offset => s!"Malformed ULEB128 integer at offset {offset}"
  | nonCanonicalUleb128 offset => s!"Non-canonical ULEB128 integer at offset {offset}"
  | valueOutOfRange value max offset => s!"Value {value} at offset {offset} exceeds maximum {max}"
  | invalidUtf8 offset => s!"Invalid UTF-8 string at offset {offset}"
  | invalidIdentifier name offset =>
      s!"Invalid identifier {Text.quoted name} at offset {offset}"
  | invalidOpcode byte offset => s!"Invalid opcode {Text.hexByte byte} at offset {offset}"
  | invalidSignatureToken byte offset =>
      s!"Invalid signature token {Text.hexByte byte} at offset {offset}"
  | signatureTooDeep max offset => s!"Signature nesting exceeds depth {max} at offset {offset}"
  | invalidTag what value offset => s!"Invalid {what} {Text.hexByte value} at offset {offset}"
  | unsupportedInVersion what version offset =>
      s!"{what} at offset {offset} requires bytecode version 6 (module is version {version})"

end DecodeError

end MoveModule.Binary
