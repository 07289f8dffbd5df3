import MoveModule.Constant
import MoveModule.Identifier
import MoveModule.Toml.Document

/-! Plans for deriving one module from another: names to change, and constants to
give other values. A plan is written as a document with a table `renames` and a list
of tables `constants`, and nothing else. -/
namespace MoveModule

/-- One constant that gets another value, as it is written in a plan. -/
structure ConstantPatch where
  tag : String
  expected : List UInt8
  new : List UInt8
deriving DecidableEq, Repr

/-- One constant that gets another value of its type. -/
structure PlannedPatch extends ConstantPatch where
  type : ConstantType

structure Plan where
  /-- Old names with their new names, in the order of the old names. -/
  renames : List (String × String)
  /-- The constants in the order in which they are changed. -/
  patches : List PlannedPatch

/-- Why a text is not a plan. -/
inductive PlanError
  /-- The text is no document, or one of another shape. -/
  | malformed
  | empty
  | invalidRename (old new : String)
  | constantType (source : ConstantError)
  /-- The new bytes of a constant are no value of its type. -/
  | constantValue (index : Nat) (source : ConstantError)
deriving DecidableEq, Repr

def PlanError.message : PlanError → String
  | .malformed => "Failed to parse plan: not a document with renames and constants"
  | .empty => "Invalid plan: Plan has no renames and no constant patches"
  | .invalidRename old new =>
      s!"Invalid plan: Invalid rename {old} -> {new}. Identifiers start with a letter or '_' " ++
        "and contain only letters, digits and '_'"
  | .constantType source => s!"Invalid plan: {source.message}"
  | .constantValue index source => s!"Invalid plan: Constant patch {index}: {source.message}"

namespace ConstantPatch

/-- The fields of a patch in their order. -/
def fields : List String :=
  ["type", "expected", "new"]

def ofParts? (tag expected new : Toml) : Option ConstantPatch := do
  return ⟨← tag.text?, ← (Text.Hex.decode (← expected.text?)).toOption,
    ← (Text.Hex.decode (← new.text?)).toOption⟩

/-- A patch as a table of its fields, or as a list that starts with them. -/
def ofToml? (document : Toml) : Option ConstantPatch :=
  match document.entries? with
  | some entries =>
      if entries.all fun entry => fields.contains entry.1 then do
        ofParts? (← entries.lookup "type") (← entries.lookup "expected") (← entries.lookup "new")
      else none
  | none => do
      match ← document.items? with
      | tag :: expected :: new :: _ => ofParts? tag expected new
      | _ => none

/-- The type that the patch names, when the new bytes are a value of it. -/
def resolve (index : Nat) (patch : ConstantPatch) : Except PlanError PlannedPatch := do
  let type ← (ConstantType.ofTag patch.tag).mapError .constantType
  (type.checkValue patch.new).mapError (.constantValue index)
  return ⟨patch, type⟩

def toJson (patch : ConstantPatch) : Json :=
  .object
    [(some "type", .text patch.tag), (some "expected", .text (Text.Hex.encode patch.expected)),
     (some "new", .text (Text.Hex.encode patch.new))]

end ConstantPatch

namespace Plan

/-- The renames and patches of a document with no other parts. Either may be missing. -/
def parts? (document : Toml) : Option (List (String × String) × List ConstantPatch) := do
  let entries ← document.entries?
  if entries.all fun entry => ["renames", "constants"].contains entry.1 then
    let renames ← match entries.lookup "renames" with
      | some names => do
          (← names.entries?).mapM fun (old, new) => do return (old, ← new.text?)
      | none => some []
    let patches ← match entries.lookup "constants" with
      | some patches => do (← patches.items?).mapM ConstantPatch.ofToml?
      | none => some []
    return (renames.mergeSort fun left right => left.1 ≤ right.1, patches)
  else none

/-- Both names of a rename have to be names. -/
def checkRename (rename : String × String) : Except PlanError Unit :=
  if isIdentifier rename.1 && isIdentifier rename.2 then .ok ()
  else .error (.invalidRename rename.1 rename.2)

/-- The plan of these renames and patches. It has to change something, with names that are names
and constants that are values of their types. -/
def validate (renames : List (String × String)) (patches : List ConstantPatch) :
    Except PlanError Plan := do
  if renames.isEmpty && patches.isEmpty then throw .empty
  renames.forM checkRename
  let planned ← patches.zipIdx.mapM fun (patch, index) => patch.resolve index
  return ⟨renames, planned⟩

/-- The plan that a text spells. -/
def parse (text : String) : Except PlanError Plan :=
  match Toml.parse? text >>= parts? with
  | none => .error .malformed
  | some (renames, patches) => validate renames patches

def toJson (plan : Plan) : Json :=
  .object
    [(some "renames", .object (plan.renames.map fun (old, new) => (some old, .text new))),
     (some "constants", .array (plan.patches.map fun patch => patch.toJson))]

end Plan

end MoveModule
