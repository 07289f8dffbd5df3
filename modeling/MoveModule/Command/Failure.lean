import MoveModule.Command.File
import MoveModule.Plan
import MoveModule.Template
import MoveModule.Text.Column

/-! Why a command fails. A failure says first what was being done and then, step by
step, what lies behind it. -/
namespace MoveModule.Command

/-- Why there is no plan. -/
inductive PlanFailure
  | file (source : FileError)
  | plan (source : PlanError)
deriving DecidableEq

inductive Failure
  | readModule (path : String) (source : FileError)
  | writeModule (path : String) (source : FileError)
  | decode (path : String) (source : Template.Error)
  | rename (path : String) (source : Template.Error)
  | patchConstant (path : String) (source : Template.Error)
  | loadPlan (path : String) (source : PlanFailure)
  | renameStep (source : RenameError)
  | patchStep (step : Nat) (source : PatchError)
  | encode (source : Template.Error)
  | readDocument (path : String) (source : FileError)
  | malformedDocument (path : String)
  | invalidDocument (source : Template.Error)
  /-- A module is written differently from how it was read. -/
  | differentBytes (place before after : Nat)
deriving DecidableEq

/-- The message of an error and those behind it. -/
def templateChain (error : Template.Error) : List String :=
  error.message :: error.sources

def PlanFailure.chain : PlanFailure → List String
  | file source => [s!"Failed to read plan file: {source.message}", source.message]
  | plan source => [source.message]

namespace Failure

/-- All messages, from what was being done to the last cause. -/
def chain : Failure → List String
  | readModule path source => [s!"Failed to read module {path}", source.message]
  | writeModule path source => [s!"Failed to write module {path}", source.message]
  | decode path source => s!"Failed to decode {path}" :: templateChain source
  | rename path source => s!"Failed to rename identifiers in {path}" :: templateChain source
  | patchConstant path source => s!"Failed to patch constant in {path}" :: templateChain source
  | loadPlan path source => s!"Failed to load plan {path}" :: source.chain
  | renameStep source => ["Rename step failed", source.message]
  | patchStep step source =>
      s!"Constant patch {step} failed" :: source.message :: source.sources
  | encode source => templateChain source
  | readDocument path source => [s!"Failed to read {path}", source.message]
  | malformedDocument path =>
      [s!"Failed to parse module JSON {path}", "not a document of a module"]
  | invalidDocument source => "Module JSON describes an invalid module" :: templateChain source
  | differentBytes place before after =>
      [s!"re-encoded module differs at byte {place} ({before} bytes in, {after} bytes out)"]

end Failure

/-- A message below the line that introduces it. Its further lines stand as far to
the right as its first. -/
def indent (first other message : String) : String :=
  first ++ ("\n" ++ other).intercalate (message.splitOn "\n")

/-- The causes of a failure, which are numbered when there are several. -/
def listCauses : List String → String
  | [] => ""
  | [cause] => "\n\nCaused by:\n" ++ indent "    " "    " cause
  | causes =>
      let lines := causes.zipIdx.map fun (cause, number) =>
        indent (Text.atRight 5 (toString number) ++ ": ") "       " cause
      "\n\nCaused by:\n" ++ "\n".intercalate lines

/-- What is shown of a failure. -/
def report (chain : List String) : String :=
  match chain with
  | [] => ""
  | message :: causes => "Error: " ++ message ++ listCauses causes ++ "\n"

end MoveModule.Command
