import MoveModule.Command.Basic
import MoveModule.Command.Parameter

/-! The command line. It names a command, with options in front of the name that go
for all commands, and options and operands behind it. The words are taken from left
to right, and the first that is out of place ends the reading. -/
namespace MoveModule.Command

/-- Why no command is carried out. -/
inductive Stop
  /-- The words are no command line. -/
  | usage
  /-- Help is asked for. -/
  | help
  /-- The version of the program is asked for. -/
  | version
deriving DecidableEq, Repr

/-- What can be said in one part of the command line. -/
structure Level where
  options : List Parameter
  /-- How many operands there are, or nothing where the first one is the name of a
  command and ends the part. -/
  operands : Option Nat

/-- What one part of the command line has said so far. -/
structure Reading where
  /-- The options with their values, from the last back. -/
  given : List (Parameter × String)
  /-- The operands, from the last back. -/
  operands : List String

namespace Reading

def empty : Reading :=
  ⟨[], []⟩

def values (reading : Reading) (parameter : Parameter) : List String :=
  ((reading.given.filter fun entry => entry.1 == parameter).map Prod.snd).reverse

def has (reading : Reading) (parameter : Parameter) : Bool :=
  !(reading.values parameter).isEmpty

/-- The value of an option that has to be given. -/
def need (reading : Reading) (parameter : Parameter) : Except Stop String :=
  match (reading.values parameter).head? with
  | some value => .ok value
  | none => .error .usage

/-- The only operand. -/
def operand (reading : Reading) : Except Stop String :=
  match reading.operands with
  | [operand] => .ok operand
  | _ => .error .usage

/-- Takes an option with its value. -/
def give (reading : Reading) (parameter : Parameter) (value : String) : Except Stop Reading :=
  match parameter with
  | .help => .error .help
  | .version => .error .version
  | other =>
      if (reading.has other && !other.isRepeatable) || !other.accepts value then .error .usage
      else .ok { reading with given := (other, value) :: reading.given }

/-- Takes an operand. All operands are paths, so none is empty. -/
def addOperand (reading : Reading) (limit : Nat) (operand : String) : Except Stop Reading :=
  if operand.isEmpty || limit ≤ reading.operands.length then .error .usage
  else .ok { reading with operands := operand :: reading.operands }

/-- Takes letters that follow one dash. What comes after the letter of an option with
a value is its value; if nothing does, the option waits for the next word. -/
def giveLetters (options : List Parameter) (reading : Reading) :
    List Char → Except Stop (Reading × Option Parameter)
  | [] => .ok (reading, none)
  | letter :: rest =>
      match options.find? fun option => option.letter? == some letter with
      | none => .error .usage
      | some parameter =>
          if parameter.takesValue then
            match rest with
            | [] => .ok (reading, some parameter)
            | '=' :: value => do return (← reading.give parameter (String.ofList value), none)
            | value => do return (← reading.give parameter (String.ofList value), none)
          else do giveLetters options (← reading.give parameter "") rest

/-- Takes what follows two dashes: a name, and maybe a sign and a value. An option
without a value waits for the next word. -/
def giveLong (options : List Parameter) (reading : Reading) (word : List Char) :
    Except Stop (Reading × Option Parameter) :=
  let name := String.ofList (word.takeWhile (· != '='))
  match options.find? fun option => option.long == name with
  | none => .error .usage
  | some parameter =>
      match word.dropWhile (· != '='), parameter.takesValue with
      | _ :: value, true => do return (← reading.give parameter (String.ofList value), none)
      | _ :: _, false => .error .usage
      | [], true => .ok (reading, some parameter)
      | [], false => do return (← reading.give parameter "", none)

/-- Takes words of which none is an option. -/
def addAll (level : Level) (reading : Reading) (words : List String) : Except Stop Reading :=
  match level.operands with
  | some limit => words.foldlM (fun reading word => reading.addOperand limit word) reading
  | none => .error .usage

/-- A word that is an option, which a single dash is not. -/
def isOption (word : String) : Bool :=
  word.toList.head? == some '-' && word != "-"

/-- Takes words when an option may wait for its value, and gives the words from the
name of a command on. After two dashes alone no word is an option. -/
def take (level : Level) (reading : Reading) :
    Option Parameter → List String → Except Stop (Reading × List String)
  | some _, [] => .error .usage
  | none, [] => .ok (reading, [])
  | some parameter, word :: rest =>
      if isOption word then .error .usage
      else do take level (← reading.give parameter word) none rest
  | none, word :: rest =>
      if word == "--" then do return (← reading.addAll level rest, [])
      else if isOption word then do
        let (reading, waiting) ← match word.toList with
          | '-' :: '-' :: name => giveLong level.options reading name
          | _ :: letters => giveLetters level.options reading letters
          | [] => .error .usage
        take level reading waiting rest
      else
        match level.operands with
        | some limit => do take level (← reading.addOperand limit word) none rest
        | none => .ok (reading, word :: rest)

end Reading

/-- A command with the colours that were asked for. -/
structure Invocation where
  command : Command
  color : Option String

/-- The options that may stand anywhere. -/
def anywhere : List Parameter :=
  [.verbose, .color, .help]

/-- What stands in front of the name of a command. -/
def topLevel : Level :=
  ⟨.version :: anywhere, none⟩

/-- What is said behind the name of a command, and the command it makes. -/
structure Form where
  options : List Parameter
  operands : Nat
  build : Reading → Except Stop Command

def Form.level (form : Form) : Level :=
  ⟨form.options ++ anywhere, some form.operands⟩

/-- A value that the option has accepted before. -/
def accepted {ε α : Type} (result : Except ε α) : Except Stop α :=
  result.mapError fun _ => .usage

/-- The forms of the commands under their names. -/
def forms : List (String × Form) :=
  [("version", ⟨[], 0, fun _ => .ok .version⟩),
   ("inspect", ⟨[.json], 1, fun reading => do
      return .inspect (← reading.operand) (reading.has .json)⟩),
   ("constants", ⟨[.json], 1, fun reading => do
      return .constants (← reading.operand) (reading.has .json)⟩),
   ("rename", ⟨[.output, .map], 1, fun reading => do
      let pairs ← (reading.values .map).mapM fun value => accepted (renamePair value)
      if pairs.isEmpty then throw .usage
      return .rename (← reading.operand) (← reading.need .output) pairs⟩),
   ("patch-constant", ⟨[.output, .type, .expected, .new], 1, fun reading => do
      let expected ← accepted (hexBytes (← reading.need .expected))
      let new ← accepted (hexBytes (← reading.need .new))
      return .patchConstant (← reading.operand) (← reading.need .output) (← reading.need .type)
        expected new⟩),
   ("apply", ⟨[.plan, .output], 1, fun reading => do
      return .apply (← reading.operand) (← reading.need .plan) (← reading.need .output)⟩),
   ("roundtrip", ⟨[], 1, fun reading => do return .roundtrip (← reading.operand)⟩),
   ("assemble", ⟨[.output], 1, fun reading => do
      return .assemble (← reading.operand) (← reading.need .output)⟩)]

/-- Whether the words after the word for help name something there is help for. -/
def isHelpTopic : List String → Bool
  | [] => true
  | [name] => name == "help" || (forms.lookup name).isSome
  | _ => false

/-- What a command line says. What is said behind the name of a command counts more
than what is said in front of it. -/
def parse (words : List String) : Except Stop Invocation := do
  match ← Reading.empty.take topLevel none words with
  | (_, []) => throw .usage
  | (top, name :: rest) =>
      if name == "help" then throw (if isHelpTopic rest then .help else .usage)
      match forms.lookup name with
      | none => throw .usage
      | some form =>
          let (reading, _) ← Reading.empty.take form.level none rest
          let command ← form.build reading
          return ⟨command, (reading.values .color).head? <|> (top.values .color).head?⟩

end MoveModule.Command
