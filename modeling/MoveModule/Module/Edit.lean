import MoveModule.Module.Verify

/-! The two ways in which a module is changed. Other tables refer to names and
constants by their places alone, so a change touches one pool and nothing else. -/
namespace MoveModule

/-- Why names are not changed. -/
inductive RenameError
  | invalidIdentifier (old new : String)
  | duplicateIdentifier (name : Identifier)
deriving DecidableEq

def RenameError.message : RenameError → String
  | invalidIdentifier old new =>
      s!"Invalid identifier {Text.quoted new} (renaming {Text.quoted old})"
  | duplicateIdentifier name =>
      s!"Renaming produces duplicate identifier {Text.quoted name.text}"

/-- Why a constant is not changed. -/
inductive PatchError
  | constantNotFound (type : ConstantType) (expected : List UInt8)
  | constant (source : ConstantError)
deriving DecidableEq

def PatchError.message : PatchError → String
  | constantNotFound type expected =>
      s!"No {type.display} constant with value 0x{Text.Hex.encode expected}"
  | constant source => source.message

/-- The messages of the errors behind this one, the nearest first. -/
def PatchError.sources : PatchError → List String
  | constantNotFound .. => []
  | constant source => source.sources

/-- Old names with their new names. -/
abbrev Renaming : Type :=
  List (String × Identifier)

namespace Renaming

/-- The new names, which all have to be names. The first that is not is reported. -/
def ofPairs (pairs : List (String × String)) : Except RenameError Renaming :=
  pairs.mapM fun (old, new) =>
    match Identifier.ofString? new with
    | some identifier => .ok (old, identifier)
    | none => .error (.invalidIdentifier old new)

/-- What a name becomes. The last pair for a name counts. -/
def apply (changes : Renaming) (name : Identifier) : Identifier :=
  (changes.reverse.lookup name.text).getD name

end Renaming

namespace Module

/-- Changes all names at once, so that two of them can be exchanged. Names that
the module does not have are passed over. -/
def rename (module : Module) (pairs : List (String × String)) : Except RenameError Module := do
  let changes ← Renaming.ofPairs pairs
  let names := module.identifiers.map changes.apply
  match firstRepeat? [] names.toList with
  | some name => .error (.duplicateIdentifier name)
  | none => .ok { module with identifiers := names }

/-- The place of the first constant with this type and these bytes. -/
def findConstant? (module : Module) (type : ConstantType) (value : List UInt8) : Option Nat :=
  module.constants.findIdx? fun constant => constant.type == type && constant.value == value

/-- Gives other bytes to the first constant that has the expected type and bytes.
The new bytes have to be a value of that type. -/
def replaceConstant (module : Module) (type : ConstantType) (expected new : List UInt8) :
    Except PatchError (Module × Nat) :=
  match module.findConstant? type expected with
  | none => .error (.constantNotFound type expected)
  | some place =>
      match type.checkValue new with
      | .error error => .error (.constant error)
      | .ok () =>
          let constants := module.constants.modify place fun constant =>
            { constant with value := new }
          .ok ({ module with constants := constants }, place)

end Module

end MoveModule
