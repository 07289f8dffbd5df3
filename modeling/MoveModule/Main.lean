import MoveModule.Command.Program

/-! The program on real files. Everything that is decided is decided elsewhere; here
bytes, words and texts only go in and out. -/
namespace MoveModule

open Command

/-- Why the system does not give or take a file. -/
def fileError : IO.Error → FileError
  | .noFileOrDirectory .. => .notFound
  | .inappropriateType _ code _ => if code == 20 then .notDirectory else .isDirectory
  | error => .other (toString error)

/-- The files of the system. -/
def systemFiles : FileAccess IO where
  read path := do
    try
      let contents ← IO.FS.readBinFile path
      return .ok contents.data.toList
    catch error => return .error (fileError error)
  write path bytes := do
    try
      IO.FS.writeBinFile path ⟨bytes.toArray⟩
      return .ok ()
    catch error => return .error (fileError error)

end MoveModule

open MoveModule MoveModule.Command in
def main (words : List String) : IO UInt32 := do
  let surroundings : Surroundings :=
    ⟨(← IO.getEnv "NO_COLOR").isSome, ← IO.getEnv "TERM"⟩
  let exit ← execute systemFiles surroundings words
  IO.print exit.output
  IO.eprint exit.error
  return UInt32.ofNat exit.code
