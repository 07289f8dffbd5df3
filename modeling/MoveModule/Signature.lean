import MoveModule.Index
import MoveModule.Width

/-! Types as they appear in signatures. A type is one token that may hold further
tokens. A reader follows them down to a fixed depth and refuses what is nested deeper. -/
namespace MoveModule

open Binary

inductive SignatureToken
  | bool
  | integer (width : Width)
  | address
  | signer
  | vector (item : SignatureToken)
  | reference (target : SignatureToken)
  | mutableReference (target : SignatureToken)
  /-- A struct that is given no type arguments. -/
  | struct (handle : Index .structHandles)
  /-- A struct with the type arguments that it is given. -/
  | instantiation (handle : Index .structHandles) (arguments : List SignatureToken)
  /-- A type parameter of the enclosing declaration. -/
  | typeParameter (index : Index .typeParameters)

/-- How many tokens, each nested in the one before, a reader takes. -/
def maxTokenDepth : Nat := 256

namespace SignatureToken

/-- The tokens directly inside a token. -/
def children : SignatureToken → List SignatureToken
  | vector item => [item]
  | reference target => [target]
  | mutableReference target => [target]
  | instantiation _ arguments => arguments
  | _ => []

mutual

/-- How many tokens a token consists of. -/
def size : SignatureToken → Nat
  | vector item => size item + 1
  | reference target => size target + 1
  | mutableReference target => size target + 1
  | instantiation _ arguments => sizeAll arguments + 1
  | _ => 1

def sizeAll : List SignatureToken → Nat
  | [] => 0
  | token :: rest => size token + sizeAll rest

end

mutual

/-- How deep tokens are nested. -/
def depth : SignatureToken → Nat
  | vector item => depth item + 1
  | reference target => depth target + 1
  | mutableReference target => depth target + 1
  | instantiation _ arguments => depthAll arguments + 1
  | _ => 1

def depthAll : List SignatureToken → Nat
  | [] => 0
  | token :: rest => max (depth token) (depthAll rest)

end

mutual

/-- The token and all tokens nested in it, each in front of its parts. -/
def nodes : SignatureToken → List SignatureToken
  | vector item => vector item :: nodes item
  | reference target => reference target :: nodes target
  | mutableReference target => mutableReference target :: nodes target
  | instantiation handle arguments => instantiation handle arguments :: nodesAll arguments
  | other => [other]

def nodesAll : List SignatureToken → List SignatureToken
  | [] => []
  | token :: rest => nodes token ++ nodesAll rest

end

theorem sizeAll_append (left right : List SignatureToken) :
    sizeAll (left ++ right) = sizeAll left + sizeAll right := by
  induction left with
  | nil => simp [sizeAll]
  | cons token rest ih => simp [sizeAll, ih, Nat.add_assoc]

theorem size_eq (token : SignatureToken) : token.size = sizeAll token.children + 1 := by
  cases token <;> simp [size, children, sizeAll]

/-- Visits the tokens that wait, held with the next one first, and puts the parts
of a visited token in front of the others. The visited tokens are held from the
last back. -/
def visit (waiting visited : List SignatureToken) : List SignatureToken :=
  match waiting with
  | [] => visited.reverse
  | token :: rest => visit (token.children ++ rest) (token :: visited)
termination_by sizeAll waiting
decreasing_by
  rw [sizeAll_append, sizeAll, size_eq]
  omega

/-- The token and all tokens nested in it, found without recursion into them. -/
def preorder (token : SignatureToken) : List SignatureToken :=
  visit [token] []

mutual

def write : SignatureToken → List UInt8
  | bool => [0x01]
  | integer width => [width.tag]
  | address => [0x05]
  | reference target => 0x06 :: write target
  | mutableReference target => 0x07 :: write target
  | struct handle => 0x08 :: Index.codec.write handle
  | typeParameter index => 0x09 :: Index.codec.write index
  | vector item => 0x0A :: write item
  | instantiation handle arguments =>
      0x0B :: (Index.codec.write handle ++ Uleb128.encode arguments.length ++ writeAll arguments)
  | signer => [0x0C]

def writeAll : List SignatureToken → List UInt8
  | [] => []
  | token :: rest => write token ++ writeAll rest

end

/-- Reads what follows the first byte of a token that starts at `start`. Tokens
directly inside it are read by `inner`. -/
def readTagged (version : UInt32) (inner : Read SignatureToken) (start : Nat) :
    (tag : UInt8) → Read SignatureToken
  | 0x01 => return bool
  | 0x05 => return address
  | 0x06 => return reference (← inner)
  | 0x07 => return mutableReference (← inner)
  | 0x08 => return struct (← Index.codec.read version)
  | 0x09 => return typeParameter (← Index.codec.read version)
  | 0x0A => return vector (← inner)
  | 0x0B => do
      let handle ← Index.codec.read version
      let count ← Read.count
      return instantiation handle (← Read.times count inner)
  | 0x0C => return signer
  | other => do
      match Width.ofTag? other with
      | some width =>
          if width.allowedIn version then return integer width
          throw (.unsupportedInVersion "u16/u32/u256 type" version start)
      | none => throw (.invalidSignatureToken other start)

/-- Reads a token when `levels` of them may still be nested. -/
def readWithin (version : UInt32) : (levels : Nat) → Read SignatureToken
  | 0 => do throw (.signatureTooDeep maxTokenDepth (← Read.offset))
  | levels + 1 => do
      let start ← Read.offset
      readTagged version (readWithin version levels) start (← Read.byte)

def codec : Codec SignatureToken where
  write := write
  read version := readWithin version maxTokenDepth

mutual

def toJson : SignatureToken → Json
  | bool => .text "Bool"
  | integer width => .text width.name
  | address => .text "Address"
  | signer => .text "Signer"
  | vector item => .variant "Vector" (toJson item)
  | struct handle => .variant "Struct" (Index.form.write handle)
  | instantiation handle arguments =>
      .variant "StructInstantiation"
        (.array [Index.form.write handle, .array (toJsonAll arguments)])
  | reference target => .variant "Reference" (toJson target)
  | mutableReference target => .variant "MutableReference" (toJson target)
  | typeParameter index => .variant "TypeParameter" (Index.form.write index)

def toJsonAll : List SignatureToken → List Json
  | [] => []
  | token :: rest => toJson token :: toJsonAll rest

end

/-- The tokens without parts and their names in documents. -/
def ofName? (name : String) : Option SignatureToken :=
  match name with
  | "Bool" => some bool
  | "Address" => some address
  | "Signer" => some signer
  | other => (Width.all.find? fun width => width.name == other).map integer

def ofJson? : (levels : Nat) → Json → Option SignatureToken
  | _, .string (some name) => ofName? name
  | levels + 1, .object [(some name, payload)] =>
      match name, payload with
      | "Vector", item => (ofJson? levels item).map vector
      | "Reference", target => (ofJson? levels target).map reference
      | "MutableReference", target => (ofJson? levels target).map mutableReference
      | "Struct", handle => (Index.form.read levels handle).map struct
      | "TypeParameter", index => (Index.form.read levels index).map typeParameter
      | "StructInstantiation", .array [handle, .array arguments] =>
          match levels with
          | inner + 2 => do
              let handle ← Index.form.read inner handle
              return instantiation handle (← arguments.mapM (ofJson? inner))
          | _ => none
      | other, .null => ofName? other
      | _, _ => none
  | _, _ => none

def form : Json.Form SignatureToken where
  write := toJson
  read := ofJson?

end SignatureToken

/-- The types of parameters, of results, of locals or of type arguments. -/
abbrev Signature : Type :=
  List SignatureToken

namespace Signature

def codec : Codec Signature :=
  .list SignatureToken.codec

def form : Json.Form Signature :=
  .list SignatureToken.form

end Signature

end MoveModule
