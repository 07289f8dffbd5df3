import MoveModule.Module.Decode
import MoveModule.Module.Edit

/-! Operations on the files of modules. A module is checked whenever it is read and
whenever it is written. The checks do not ask which version has a type or an opcode,
how deep types are nested or which bits abilities have, all of which a reader asks.
A module that was read from a file and then changed by the operations here gives a
file that can be read, as long as its tables fit into the directory. A module from a
document may pass the checks and give a file that is refused. -/
namespace MoveModule.Template

inductive Error
  | format (source : ModuleError)
  | verify (source : VerifyError)
  | rename (source : RenameError)
  | patch (source : PatchError)
deriving DecidableEq

namespace Error

def message : Error → String
  | format source => source.message
  | verify source => source.message
  | rename source => source.message
  | patch source => source.message

/-- The messages of the errors behind this one, the nearest first. -/
def sources : Error → List String
  | format source => source.sources
  | verify source => source.sources
  | rename _ => []
  | patch source => source.sources

end Error

/-- The module of a file, if it passes all checks. -/
def deserialize (bytes : List UInt8) : Except Error Module := do
  let module ← (Module.decode bytes).mapError .format
  module.verify.mapError .verify
  return module

/-- The file of a module that passes all checks. -/
def serialize (module : Module) : Except Error (List UInt8) := do
  module.verify.mapError .verify
  return module.encode

/-- The file with other names. -/
def updateIdentifiers (bytes : List UInt8) (pairs : List (String × String)) :
    Except Error (List UInt8) := do
  let module ← deserialize bytes
  serialize (← (module.rename pairs).mapError .rename)

/-- The constants of a file. -/
def constants (bytes : List UInt8) : Except Error (Array Constant) := do
  return (← deserialize bytes).constants

/-- The file with another value in one constant. The type is given by its tag. -/
def updateConstants (bytes : List UInt8) (tag : String) (expected new : List UInt8) :
    Except Error (List UInt8) := do
  let type ← (ConstantType.ofTag tag).mapError fun error => .patch (.constant error)
  let module ← deserialize bytes
  let (patched, _) ← (module.replaceConstant type expected new).mapError .patch
  serialize patched

end MoveModule.Template
