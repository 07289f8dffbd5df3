import MoveModule.Command.Line
import MoveModule.Command.Run

/-! The whole program: from the words of the command line to what is shown and the
code that the program ends with. -/
namespace MoveModule.Command

/-- What the surroundings say about the terminal. -/
structure Surroundings where
  /-- Whether colours are switched off for all programs. -/
  noColor : Bool
  /-- The kind of terminal. -/
  terminal : Option String
deriving DecidableEq, Repr

/-- Whether text is coloured. What goes for all programs counts more than what this
one was told. -/
def useColors (surroundings : Surroundings) (choice : Option String) : Bool :=
  if surroundings.noColor then false
  else if choice == some "always" then true
  else if choice == some "never" then false
  else match surroundings.terminal with
    | some terminal => terminal != "dumb"
    | none => false

structure Exit where
  code : Nat
  output : String
  error : String
deriving DecidableEq, Repr

/-- How the program is used. -/
def usageText : String :=
  "Usage: movetpl [OPTIONS] <COMMAND>\n\nCommands: " ++ ", ".intercalate (forms.map Prod.fst) ++
    "\n"

/-- The end of a program that carries out no command. -/
def Stop.exit : Stop → Exit
  | usage => ⟨2, "", usageText⟩
  | help => ⟨0, usageText, ""⟩
  | version => ⟨0, s!"movetpl {libraryVersion}\n", ""⟩

/-- The end of a program that has carried out a command. -/
def Outcome.exit (colors : Bool) (outcome : Outcome) : Exit :=
  let output := Span.renderAll colors outcome.output
  match outcome.failure with
  | none => ⟨0, output, ""⟩
  | some failure => ⟨1, output, report failure.chain⟩

/-- Does what the command line says. -/
def execute {m : Type → Type} [Monad m] (files : FileAccess m) (surroundings : Surroundings)
    (words : List String) : m Exit := do
  match parse words with
  | .error stop => return stop.exit
  | .ok invocation =>
      let outcome ← run files invocation.command
      return outcome.exit (useColors surroundings invocation.color)

end MoveModule.Command
