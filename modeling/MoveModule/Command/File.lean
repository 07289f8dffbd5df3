/-! Files as commands see them: named byte strings that are read and written whole.
Commands work with any way to get at files. One of them is a directory held as a
value, in which what a command does can be looked at. -/
namespace MoveModule.Command

/-- Why a file cannot be read or written. -/
inductive FileError
  | notFound
  | notDirectory
  | isDirectory
  /-- The bytes of the file are not text. -/
  | notText
  | other (message : String)
deriving DecidableEq, Repr

def FileError.message : FileError → String
  | notFound => "No such file or directory (os error 2)"
  | notDirectory => "Not a directory (os error 20)"
  | isDirectory => "Is a directory (os error 21)"
  | notText => "stream did not contain valid UTF-8"
  | other message => message

/-- A way to get at files. -/
structure FileAccess (m : Type → Type) where
  read : (path : String) → m (Except FileError (List UInt8))
  write : (path : String) → List UInt8 → m (Except FileError Unit)

/-- The files of a directory with their names. It has no directories inside. -/
structure Directory where
  files : List (String × List UInt8)
deriving DecidableEq, Repr

namespace Directory

def contents? (directory : Directory) (name : String) : Option (List UInt8) :=
  directory.files.lookup name

/-- Gives a file other contents, or makes it. -/
def put (directory : Directory) (name : String) (contents : List UInt8) : Directory :=
  ⟨(name, contents) :: directory.files.filter fun file => file.1 != name⟩

theorem contents?_put (directory : Directory) (name other : String) (contents : List UInt8) :
    (directory.put name contents).contents? other =
      if other = name then some contents else directory.contents? other := by
  by_cases hName : other = name
  · simp [put, contents?, hName]
  · rw [if_neg hName, contents?, put, List.lookup_cons, beq_false_of_ne hName]
    have key (files : List (String × List UInt8)) :
        (files.filter fun file => file.1 != name).lookup other = files.lookup other := by
      induction files with
      | nil => rfl
      | cons file rest ih =>
          by_cases hFile : file.1 = name
          · have hOther : (other == file.1) = false := beq_false_of_ne (hFile ▸ hName)
            rw [List.filter_cons_of_neg (by simp [hFile]), ih, List.lookup_cons, hOther]
          · rw [List.filter_cons_of_pos (by simp [hFile]), List.lookup_cons, List.lookup_cons, ih]
    exact key directory.files

/-- The name that a path has in the directory. -/
def resolve (directory : Directory) (path : String) : Except FileError String :=
  let parts := (path.toList.splitOn '/').map String.ofList
  let names := parts.filter fun part => part != "" && part != "."
  let isPlain := parts.getLast? == names.getLast?
  match names with
  | [] => .error (if path.isEmpty then .notFound else .isDirectory)
  | [".."] => .error .isDirectory
  | [name] =>
      if isPlain then .ok name
      else .error (if (directory.contents? name).isSome then .notDirectory else .notFound)
  | name :: _ =>
      .error (if (directory.contents? name).isSome then .notDirectory else .notFound)

def read (directory : Directory) (path : String) : Except FileError (List UInt8) := do
  match directory.contents? (← directory.resolve path) with
  | some contents => return contents
  | none => throw .notFound

def write (directory : Directory) (path : String) (contents : List UInt8) :
    Except FileError Directory := do
  return directory.put (← directory.resolve path) contents

/-- Access to the files of a directory that is held as a value. -/
def access : FileAccess (StateM Directory) where
  read path := do return (← get).read path
  write path contents := do
    match (← get).write path contents with
    | .ok directory => do
        set directory
        return .ok ()
    | .error error => return .error error

end Directory

end MoveModule.Command
