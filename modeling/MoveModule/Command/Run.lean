import MoveModule.Command.Basic
import MoveModule.Command.Failure
import MoveModule.Command.Summary
import MoveModule.Json.Parser
import MoveModule.Json.Printer
import MoveModule.Module.Json

/-! How commands are carried out. A command reads all it needs and computes its
result before it writes, and writes at most one file. -/
namespace MoveModule.Command

/-- The version of the format library. -/
def libraryVersion : String := "0.1.1"

/-- What a command leaves behind besides files. -/
structure Outcome where
  output : List Span
  failure : Option Failure

/-- A part of a command, which may fail. -/
abbrev Action (m : Type → Type) (α : Type) := ExceptT Failure m α

section

variable {m : Type → Type} [Monad m]

/-- What a file access gives, or a failure in its place. -/
def orFail {α : Type} (failure : FileError → Failure) (access : m (Except FileError α)) :
    Action m α := do
  match ← access with
  | .ok value => return value
  | .error error => throw (failure error)

/-- A result that has been computed, or a failure in its place. -/
def check {ε α : Type} (failure : ε → Failure) (result : Except ε α) : Action m α :=
  match result with
  | .ok value => return value
  | .error error => throw (failure error)

def readModule (files : FileAccess m) (path : String) : Action m (List UInt8) :=
  orFail (.readModule path) (files.read path)

def writeModule (files : FileAccess m) (path : String) (bytes : List UInt8) : Action m Unit :=
  orFail (.writeModule path) (files.write path bytes)

/-- The text of a file. -/
def readText (files : FileAccess m) (path : String) : m (Except FileError String) := do
  match ← files.read path with
  | .ok bytes =>
      match Text.ofBytes? bytes with
      | some text => return .ok text
      | none => return .error .notText
  | .error error => return .error error

def loadPlan (files : FileAccess m) (path : String) : Action m Plan := do
  let text ← orFail (fun error => .loadPlan path (.file error)) (readText files path)
  check (fun error => .loadPlan path (.plan error)) (Plan.parse text)

/-- A document on lines of its own. -/
def documentOutput (document : Json) : List Span :=
  [.line (Json.pretty document)]

def showModule (files : FileAccess m) (path : String) (json : Bool) : Action m (List Span) := do
  let bytes ← readModule files path
  let module ← check (.decode path) (Template.deserialize bytes)
  if json then return documentOutput (Module.form.write module)
  return summary module bytes

def listConstants (files : FileAccess m) (path : String) (json : Bool) :
    Action m (List Span) := do
  let bytes ← readModule files path
  let constants ← check (.decode path) (Template.constants bytes)
  if json then return documentOutput (Constant.form.array.write constants)
  return constantList constants

def renameNames (files : FileAccess m) (path output : String) (pairs : List (String × String)) :
    Action m (List Span) := do
  let bytes ← readModule files path
  let renamed ← check (.rename path) (Template.updateIdentifiers bytes pairs)
  writeModule files output renamed
  return [.line s!"Renamed {pairs.length} identifier(s) -> {output}"]

def replaceConstant (files : FileAccess m) (path output tag : String)
    (expected new : List UInt8) : Action m (List Span) := do
  let bytes ← readModule files path
  let patched ← check (.patchConstant path) (Template.updateConstants bytes tag expected new)
  writeModule files output patched
  return [.line (s!"Patched {tag} constant 0x{Text.Hex.encode expected} -> " ++
    s!"0x{Text.Hex.encode new} -> {output}")]

end

/-- Changes the names of a module as a plan says, if it says anything about names. -/
def renameStep (plan : Plan) (module : Module) : Except Failure Module :=
  if plan.renames.isEmpty then .ok module
  else (module.rename plan.renames).mapError .renameStep

/-- Changes one constant of a module. -/
def patchStep (module : Module) (patch : PlannedPatch × Nat) : Except Failure Module := do
  let (patch, step) := patch
  let (patched, _) ←
    (module.replaceConstant patch.type patch.expected patch.new).mapError (.patchStep step)
  return patched

/-- The module that a plan derives from another, with the names changed first. -/
def derive (plan : Plan) (module : Module) : Except Failure Module := do
  plan.patches.zipIdx.foldlM patchStep (← renameStep plan module)

section

variable {m : Type → Type} [Monad m]

def applyPlan (files : FileAccess m) (path planPath output : String) :
    Action m (List Span) := do
  let plan ← loadPlan files planPath
  let bytes ← readModule files path
  let module ← check (.decode path) (Template.deserialize bytes)
  let derived ← check id (derive plan module)
  let patched ← check .encode (Template.serialize derived)
  writeModule files output patched
  return [.line (s!"Applied {plan.renames.length} rename(s) and {plan.patches.length} " ++
    s!"constant patch(es) -> {output}")]

end

/-- How many bytes two byte strings have in common at the front. -/
def commonLength : List UInt8 → List UInt8 → Nat
  | a :: before, b :: after => if a == b then commonLength before after + 1 else 0
  | _, _ => 0

/-- What is said about a module that is written again. -/
def compareBytes (path : String) (before after : List UInt8) : Outcome :=
  if before == after then
    ⟨[.strong (some .green) "ok", .line s!" {path} ({before.length} bytes)"], none⟩
  else
    ⟨[.strong (some .red) "mismatch", .line s!" {path}"],
      some (.differentBytes (commonLength before after) before.length after.length)⟩

section

variable {m : Type → Type} [Monad m]

def roundtripModule (files : FileAccess m) (path : String) : Action m Outcome := do
  let bytes ← readModule files path
  let module ← check (.decode path) (Template.deserialize bytes)
  let again ← check .encode (Template.serialize module)
  return compareBytes path bytes again

def assembleModule (files : FileAccess m) (input output : String) : Action m (List Span) := do
  let text ← orFail (.readDocument input) (readText files input)
  match Json.parse? text >>= Module.form.read? with
  | none => throw (.malformedDocument input)
  | some module =>
      let bytes ← check .invalidDocument (Template.serialize module)
      writeModule files output bytes
      return [.line s!"Assembled {bytes.length} bytes -> {output}"]

/-- An action that shows something when it does not fail. -/
def shown (action : Action m (List Span)) : Action m Outcome := do
  return ⟨← action, none⟩

/-- The parts of each command. -/
def action (files : FileAccess m) : Command → Action m Outcome
  | .version => shown (return [.line s!"movetpl-bytecode {libraryVersion}"])
  | .inspect path json => shown (showModule files path json)
  | .constants path json => shown (listConstants files path json)
  | .rename path output pairs => shown (renameNames files path output pairs)
  | .patchConstant path output tag expected new =>
      shown (replaceConstant files path output tag expected new)
  | .apply path plan output => shown (applyPlan files path plan output)
  | .roundtrip path => roundtripModule files path
  | .assemble input output => shown (assembleModule files input output)

/-- Carries out a command. -/
def run (files : FileAccess m) (command : Command) : m Outcome := do
  match ← (action files command).run with
  | .ok outcome => return outcome
  | .error failure => return ⟨[], some failure⟩

end

end MoveModule.Command
