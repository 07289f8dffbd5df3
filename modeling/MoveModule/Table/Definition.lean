import MoveModule.Instruction
import MoveModule.Table.Handle

/-! What a module declares itself: structs with their fields, and functions with
their code. -/
namespace MoveModule

open Binary

structure FieldDefinition where
  name : Index .identifiers
  type : SignatureToken

namespace FieldDefinition

def codec : Codec FieldDefinition :=
  (Index.codec.pair SignatureToken.codec).map
    (fun (name, type) => ⟨name, type⟩) (fun field => (field.name, field.type))

def form : Json.Form FieldDefinition :=
  ((Json.Fields.required "name" Index.form).and
    (Json.Fields.required "signature" SignatureToken.form)).form.map
    (fun (name, type) => ⟨name, type⟩) (fun field => (field.name, field.type))

end FieldDefinition

/-- The fields of a struct. Those of a native struct are known to the machine alone. -/
inductive StructFields
  | native
  | declared (fields : List FieldDefinition)

namespace StructFields

/-- The declared fields, of which a native struct has none. -/
def toList : StructFields → List FieldDefinition
  | native => []
  | declared fields => fields

def ofDeclared : Option (List FieldDefinition) → StructFields
  | none => native
  | some fields => declared fields

def declared? : StructFields → Option (List FieldDefinition)
  | native => none
  | declared fields => some fields

/-- The byte in front of the fields, which says whether there are any. -/
def presence : Codec Bool :=
  .tag "struct field information" (fun present => if present then 2 else 1) fun byte =>
    if byte = 1 then some false else if byte = 2 then some true else none

def codec : Codec StructFields :=
  (presence.andThen fun present => .when present (.list FieldDefinition.codec)).map
    (fun value => ofDeclared value.2) (fun fields => (fields.declared?.isSome, fields.declared?))

def toJson : StructFields → Json
  | native => .text "Native"
  | declared fields => .variant "Declared" ((Json.Form.list FieldDefinition.form).write fields)

def ofJson? : (levels : Nat) → Json → Option StructFields
  | _, .string (some "Native") => some native
  | levels + 1, .object [(some name, payload)] =>
      match name, payload with
      | "Native", .null => some native
      | "Declared", fields =>
          ((Json.Form.list FieldDefinition.form).read levels fields).map declared
      | _, _ => none
  | _, _ => none

def form : Json.Form StructFields where
  write := toJson
  read := ofJson?

end StructFields

structure StructDefinition where
  handle : Index .structHandles
  fields : StructFields

namespace StructDefinition

def codec : Codec StructDefinition :=
  (Index.codec.pair StructFields.codec).map
    (fun (handle, fields) => ⟨handle, fields⟩)
    (fun definition => (definition.handle, definition.fields))

def form : Json.Form StructDefinition :=
  ((Json.Fields.required "struct_handle" Index.form).and
    (Json.Fields.required "field_information" StructFields.form)).form.map
    (fun (handle, fields) => ⟨handle, fields⟩)
    (fun definition => (definition.handle, definition.fields))

end StructDefinition

/-- Who may call a function. -/
inductive Visibility
  | «private»
  | «public»
  | friend
deriving DecidableEq, Repr

namespace Visibility

def all : List Visibility :=
  [«private», «public», friend]

def byte : Visibility → UInt8
  | «private» => 0
  | «public» => 1
  | friend => 3

def name : Visibility → String
  | «private» => "Private"
  | «public» => "Public"
  | friend => "Friend"

def codec : Codec Visibility :=
  .tag "visibility" byte fun source => all.find? fun visibility => visibility.byte == source

def form : Json.Form Visibility :=
  .name name fun text => all.find? fun visibility => visibility.name == text

end Visibility

/-- The body of a function. -/
structure Code where
  /-- The types of the locals that follow the parameters. -/
  locals : Index .signatures
  instructions : List Instruction

namespace Code

def codec : Codec Code :=
  (Index.codec.pair (.list Instruction.codec)).map
    (fun (locals, instructions) => ⟨locals, instructions⟩)
    (fun code => (code.locals, code.instructions))

def form : Json.Form Code :=
  ((Json.Fields.required "locals" Index.form).and
    (Json.Fields.required "code" (.list Instruction.form))).form.map
    (fun (locals, instructions) => ⟨locals, instructions⟩)
    (fun code => (code.locals, code.instructions))

end Code

/-- What one byte says about a function. -/
structure FunctionFlags where
  isNative : Bool
  isEntry : Bool
deriving DecidableEq, Repr

namespace FunctionFlags

def byte (flags : FunctionFlags) : UInt8 :=
  (if flags.isNative then 2 else 0) + (if flags.isEntry then 4 else 0)

def ofByte? (byte : UInt8) : Option FunctionFlags :=
  if byte &&& 6 = byte then some ⟨byte &&& 2 ≠ 0, byte &&& 4 ≠ 0⟩ else none

def codec : Codec FunctionFlags :=
  .tag "function flags" byte ofByte?

end FunctionFlags

structure FunctionDefinition where
  handle : Index .functionHandles
  visibility : Visibility
  /-- Whether a transaction may start with the function. -/
  isEntry : Bool
  /-- The resources that the function takes from global storage. -/
  acquires : List (Index .structDefinitions)
  /-- The body, which a native function does not have. -/
  code : Option Code

namespace FunctionDefinition

def isNative (definition : FunctionDefinition) : Bool :=
  definition.code.isNone

def flags (definition : FunctionDefinition) : FunctionFlags :=
  ⟨definition.isNative, definition.isEntry⟩

def codec : Codec FunctionDefinition :=
  ((Index.codec.pair (Visibility.codec.pair FunctionFlags.codec)).andThen fun head =>
    (Codec.list Index.codec).pair (.when (!head.2.2.isNative) Code.codec)).map
    (fun ((handle, visibility, flags), acquires, code) =>
      ⟨handle, visibility, flags.isEntry, acquires, code⟩)
    (fun definition =>
      ((definition.handle, definition.visibility, definition.flags),
        definition.acquires, definition.code))

def form : Json.Form FunctionDefinition :=
  ((Json.Fields.required "function" Index.form).and
    ((Json.Fields.required "visibility" Visibility.form).and
    ((Json.Fields.required "is_entry" Json.Form.bool).and
    ((Json.Fields.required "acquires_global_resources" (.list Index.form)).and
    (Json.Fields.optional "code" Code.form))))).form.map
    (fun (handle, visibility, isEntry, acquires, code) =>
      ⟨handle, visibility, isEntry, acquires, code⟩)
    (fun definition =>
      (definition.handle, definition.visibility, definition.isEntry, definition.acquires,
        definition.code))

end FunctionDefinition

end MoveModule
