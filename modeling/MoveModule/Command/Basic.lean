/-! What the program can be told to do. -/
namespace MoveModule

inductive Command
  | version
  /-- A summary of a module, or all of it as a document. -/
  | inspect (path : String) (json : Bool)
  /-- The constants of a module, as a list or as a document. -/
  | constants (path : String) (json : Bool)
  | rename (path output : String) (pairs : List (String × String))
  | patchConstant (path output tag : String) (expected new : List UInt8)
  /-- Derives a module by a plan. -/
  | apply (path plan output : String)
  /-- Sees whether a module is written as it was read. -/
  | roundtrip (path : String)
  /-- Makes a module from a document. -/
  | assemble (input output : String)
deriving DecidableEq, Repr

end MoveModule
