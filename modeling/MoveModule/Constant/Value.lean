import MoveModule.Address
import MoveModule.Constant.TypeTag

/-! The values of constants. The bytes of a value do not say what its type is, so
they are read along a type. A value has one row of bytes for its type. -/
namespace MoveModule

open Binary

inductive ConstantValue
  | bool (value : Bool)
  | integer (width : Width) (value : width.Value)
  | address (value : Address)
  | vector (items : List ConstantValue)

/-- Why a text or bytes are no constant. -/
inductive ConstantError
  | lengthMismatch (type : ConstantType) (expected actual : Nat)
  | malformed (type : ConstantType) (source : DecodeError)
  | trailingBytes (type : ConstantType) (count : Nat)
  | unknownTypeTag (tag : String)
deriving DecidableEq, Repr

def ConstantError.message : ConstantError → String
  | .lengthMismatch type expected actual =>
      s!"{type.display} constant must be {expected} bytes, got {actual}"
  | .malformed type source => s!"Malformed {type.display} constant: {source.message}"
  | .trailingBytes type count => s!"{count} trailing bytes after {type.display} constant"
  | .unknownTypeTag tag => s!"Unknown constant type tag {Text.quoted tag}"

/-- The messages of the errors behind this one, the nearest first. -/
def ConstantError.sources : ConstantError → List String
  | .malformed _ source => [source.message]
  | _ => []

/-- The type that a tag names, or the complaint that it names none. -/
def ConstantType.ofTag (tag : String) : Except ConstantError ConstantType :=
  match ConstantType.ofTag? tag with
  | some type => .ok type
  | none => .error (.unknownTypeTag tag)

namespace ConstantValue

mutual

/-- A value of a type. The items of a vector all have the type of its items. -/
def hasType : ConstantType → ConstantValue → Bool
  | .bool, bool _ => true
  | .integer width, integer actual _ => width == actual
  | .address, address _ => true
  | .vector item, vector items => allHaveType item items
  | _, _ => false

def allHaveType (type : ConstantType) : List ConstantValue → Bool
  | [] => true
  | item :: rest => hasType type item && allHaveType type rest

end

mutual

def write : ConstantValue → List UInt8
  | bool value => [if value then 1 else 0]
  | integer width value => width.codec.write value
  | address value => Address.codec.write value
  | vector items => Uleb128.encode items.length ++ writeAll items

def writeAll : List ConstantValue → List UInt8
  | [] => []
  | item :: rest => write item ++ writeAll rest

end

/-- Reads a value of a type. -/
def read (version : UInt32) : ConstantType → Read ConstantValue
  | .bool => do return bool (← Read.flag "bool constant")
  | .integer width => do return integer width (← width.codec.read version)
  | .address => do return address (← Address.codec.read version)
  | .vector item => do
      let count ← Read.count
      return vector (← Read.times count (read version item))

/-- Reads a value of a type from bytes that hold nothing else. A wrong number of
bytes is found before they are looked at, where the type allows only one. -/
def decode (type : ConstantType) (bytes : List UInt8) : Except ConstantError ConstantValue :=
  match type.fixedSize with
  | some expected =>
      if bytes.length = expected then complete else
        .error (.lengthMismatch type expected bytes.length)
  | none => complete
where
  /-- Reads the value and sees to it that no byte is left. -/
  complete : Except ConstantError ConstantValue :=
    match read 0 type (Cursor.ofBytes bytes) with
    | .error source _ => .error (.malformed type source)
    | .ok value rest =>
        if rest.hasMore then .error (.trailingBytes type rest.remaining) else .ok value

/-- The byte of an item that can be shown as a character. -/
def shownByte? : ConstantValue → Option UInt8
  | integer .w8 value =>
      let byte := UInt8.ofNat value.toNat
      if 0x20 ≤ byte && byte < 0x7F then some byte else none
  | _ => none

/-- Bytes as the text they spell, with a backslash before quotes and backslashes. -/
def byteText (bytes : List UInt8) : String :=
  bytes.foldl (fun text byte =>
    let c := Char.ofNat byte.toNat
    if c == '"' || c == '\\' then (text.push '\\').push c else text.push c) "b\"" ++ "\""

/-- An integer in decimal, or one of the widest kind as its 64 digits in base 16. -/
def integerText : (width : Width) → width.Value → String
  | .w256, value => "0x" ++ Text.Hex.encode (LittleEndian.encode 32 value.toNat).reverse
  | _, value => toString value.toNat

mutual

/-- Adds a value, as it is shown, to what is already written. A vector of bytes
that all stand for characters is shown as text, unless it is empty. -/
def append (written : String) : ConstantValue → String
  | bool value => written ++ if value then "true" else "false"
  | integer width value => written ++ integerText width value
  | address value => written ++ value.display
  | vector [] => written ++ "[]"
  | vector (first :: rest) =>
      match (first :: rest).mapM shownByte? with
      | some bytes => written ++ byteText bytes
      | none => (appendItems (append (written.push '[') first) rest).push ']'

/-- Adds further items of a vector. -/
def appendItems (written : String) : List ConstantValue → String
  | [] => written
  | item :: rest => appendItems (append (written ++ ", ") item) rest

end

/-- A value as it is shown. -/
def display (value : ConstantValue) : String :=
  append "" value

mutual

def toJson : ConstantValue → Json
  | bool value => .variant "Bool" (.bool value)
  | integer width value => .variant width.name (width.form.write value)
  | address value => .variant "Address" (Address.bytesForm.write value)
  | vector items => .variant "Vector" (.array (toJsonAll items))

def toJsonAll : List ConstantValue → List Json
  | [] => []
  | item :: rest => toJson item :: toJsonAll rest

end

def ofJson? : (levels : Nat) → Json → Option ConstantValue
  | levels + 1, .object [(some name, payload)] =>
      match name, payload with
      | "Bool", value => (Json.Form.bool.read levels value).map bool
      | "Address", value => (Address.bytesForm.read levels value).map address
      | "Vector", .array items =>
          match levels with
          | inner + 1 => (items.mapM (ofJson? inner)).map vector
          | 0 => none
      | other, value => do
          let width ← Width.all.find? fun width => width.name == other
          return integer width (← width.form.read levels value)
  | _, _ => none

def form : Json.Form ConstantValue where
  write := toJson
  read := ofJson?

end ConstantValue

end MoveModule
