import MoveModule.Command.Argument

/-! The options of the program. Every option has a long name, some have a letter as
well, and an option either takes a value or is only there or not. -/
namespace MoveModule.Command

inductive Parameter
  | verbose
  | color
  | help
  | version
  | json
  | output
  | map
  | plan
  | type
  | expected
  | new
deriving DecidableEq, Repr

namespace Parameter

/-- The long name, as it follows two dashes. -/
def long : Parameter → String
  | verbose => "verbose"
  | color => "color"
  | help => "help"
  | version => "version"
  | json => "json"
  | output => "output"
  | map => "map"
  | plan => "plan"
  | type => "type"
  | expected => "expected"
  | new => "new"

/-- The letter that follows one dash. -/
def letter? : Parameter → Option Char
  | verbose => some 'v'
  | help => some 'h'
  | version => some 'V'
  | output => some 'o'
  | map => some 'm'
  | plan => some 'p'
  | _ => none

def takesValue : Parameter → Bool
  | verbose | help | version | json => false
  | _ => true

/-- Whether the option may be given more than once. -/
def isRepeatable : Parameter → Bool
  | verbose | map => true
  | _ => false

/-- Whether a text is a value of the option. A path is never empty. -/
def accepts (parameter : Parameter) (value : String) : Bool :=
  match parameter with
  | output | plan => !value.isEmpty
  | map => (renamePair value).toBool
  | expected | new => (hexBytes value).toBool
  | _ => true

end Parameter

end MoveModule.Command
