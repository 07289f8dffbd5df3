/-! Text for a terminal, in spans of one look each. Looks are left out where colours
are off, so the text itself does not depend on them. -/
namespace MoveModule.Command

inductive Color
  | red
  | green
  | cyan
  | white
deriving DecidableEq, Repr

structure Style where
  color : Option Color
  bold : Bool
deriving DecidableEq, Repr

/-- A stretch of text. One without style is never marked up. -/
structure Span where
  style : Option Style
  text : String
deriving DecidableEq, Repr

/-- The number of a colour on the terminal. -/
def Color.code : Color → Nat
  | red => 1
  | green => 2
  | cyan => 6
  | white => 7

/-- The command that sets one property of the text that follows. -/
def select (property : String) : String :=
  "\x1b[" ++ property ++ "m"

/-- The commands that switch a style on. -/
def Style.start (style : Style) : String :=
  let bold := if style.bold then select "1" else ""
  let color := match style.color with
    | some color => select s!"3{color.code}"
    | none => ""
  select "0" ++ bold ++ color

namespace Span

def plain (text : String) : Span :=
  ⟨none, text⟩

def line (text : String) : Span :=
  plain (text ++ "\n")

def colored (color : Color) (text : String) : Span :=
  ⟨some ⟨some color, false⟩, text⟩

def strong (color : Option Color) (text : String) : Span :=
  ⟨some ⟨color, true⟩, text⟩

/-- A span as it is sent to the terminal. -/
def render (colors : Bool) (span : Span) : String :=
  match span.style with
  | some style => if colors then style.start ++ span.text ++ select "0" else span.text
  | none => span.text

/-- Spans one after the other. -/
def renderAll (colors : Bool) (spans : List Span) : String :=
  spans.foldl (fun sent span => sent ++ span.render colors) ""

end Span

end MoveModule.Command
