import MoveModule.Opcode

/-! Instructions, which are opcodes with what they work on. The kind of operand is
fixed by the opcode, and everything else about an instruction by that kind. -/
namespace MoveModule

open Binary

namespace OperandKind

/-- The operands of a kind. -/
def Value : OperandKind → Type
  | nothing => Unit
  | target => Index .instructions
  | slot => UInt8
  | integer width => width.Value
  | index pool => Index pool
  | items => Index .signatures × UInt64

def codec : (kind : OperandKind) → Codec kind.Value
  | nothing => { write := fun _ => [], read := fun _ => return () }
  | target => Index.codec
  | slot => Codec.byte
  | integer width => width.codec
  | index _ => Index.codec
  | items => Index.codec.pair Codec.uleb128

/-- An operand as a document. What has no operand is said with nothing. -/
def form : (kind : OperandKind) → Json.Form kind.Value
  | nothing => {
      write := fun _ => .null
      read := fun _ document => match document with
        | .null => some ()
        | _ => none }
  | target => Index.form
  | slot => Json.Form.uint8
  | integer width => width.form
  | index _ => Index.form
  | items => Index.form.pair Json.Form.uint64

end OperandKind

structure Instruction where
  opcode : Opcode
  operand : opcode.operand.Value

namespace Instruction

/-- The instruction that a branch goes on with. -/
def target? (instruction : Instruction) : Option (Index .instructions) :=
  match instruction with
  | ⟨opcode, operand⟩ =>
      match opcode.operand, operand with
      | .target, target => some target
      | _, _ => none

/-- The parameter or local that an instruction is about. -/
def slot? (instruction : Instruction) : Option UInt8 :=
  match instruction with
  | ⟨opcode, operand⟩ =>
      match opcode.operand, operand with
      | .slot, slot => some slot
      | _, _ => none

def codec : Codec Instruction where
  write instruction :=
    instruction.opcode.byte :: instruction.opcode.operand.codec.write instruction.operand
  read version := do
    let start ← Read.offset
    let byte ← Read.byte
    match Opcode.ofByte? byte with
    | none => throw (.invalidOpcode byte start)
    | some opcode =>
        if opcode.allowedIn version then
          return ⟨opcode, ← opcode.operand.codec.read version⟩
        throw (.unsupportedInVersion opcode.mnemonic version start)

/-- An instruction without operand is its name; any other is an object with its
name and operand. -/
def toJson (instruction : Instruction) : Json :=
  match instruction.opcode.operand with
  | .nothing => .text instruction.opcode.name
  | _ =>
      .variant instruction.opcode.name
        (instruction.opcode.operand.form.write instruction.operand)

def ofJson? : (levels : Nat) → Json → Option Instruction
  | _, .string (some name) => do
      let opcode ← Opcode.ofName? name
      match h : opcode.operand with
      | .nothing => some ⟨opcode, h ▸ ()⟩
      | _ => none
  | levels + 1, .object [(some name, payload)] => do
      let opcode ← Opcode.ofName? name
      return ⟨opcode, ← opcode.operand.form.read levels payload⟩
  | _, _ => none

def form : Json.Form Instruction where
  write := toJson
  read := ofJson?

end Instruction

end MoveModule
