import MoveModule.Text.Hex

/-! Values on the command line that are more than plain text. -/
namespace MoveModule.Command

/-- Why a value is refused. -/
inductive ArgumentError
  | notRename (text : String)
  | notHex (text : String) (source : Text.Hex.Error)
deriving DecidableEq, Repr

def ArgumentError.message : ArgumentError → String
  | .notRename text => s!"expected OLD=NEW, got '{text}'"
  | .notHex text source => s!"invalid hex '{text}': {source.message}"

/-- An old and a new name. The first sign between them counts, so the new name may
hold further ones. -/
def renamePair (text : String) : Except ArgumentError (String × String) :=
  let old := text.toList.takeWhile (· != '=')
  match text.toList.dropWhile (· != '=') with
  | _ :: first :: rest =>
      if old.isEmpty then .error (.notRename text)
      else .ok (String.ofList old, String.ofList (first :: rest))
  | _ => .error (.notRename text)

/-- The digits of a row of bytes, without the mark that may stand in front. -/
def digits (text : String) : String :=
  match text.toList with
  | '0' :: 'x' :: rest => String.ofList rest
  | '0' :: 'X' :: rest => String.ofList rest
  | _ => text

/-- Bytes in base sixteen. -/
def hexBytes (text : String) : Except ArgumentError (List UInt8) :=
  (Text.Hex.decode (digits text)).mapError (.notHex text)

end MoveModule.Command
