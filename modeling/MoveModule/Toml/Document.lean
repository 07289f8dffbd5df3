import MoveModule.Toml.Statement

/-! Documents from their statements. A key belongs to the table that was opened
last, or to the document itself where none was. -/
namespace MoveModule.Toml

/-- A document of which some statements have been taken. -/
structure Draft where
  entries : Entries
  /-- The table that was opened last. -/
  header : List String

namespace Draft

def start : Draft :=
  ⟨[], []⟩

/-- Takes the next statement. -/
def step (draft : Draft) : Statement → Option Draft
  | .header path => do return ⟨← draft.entries.openTable? path, path⟩
  | .nextHeader path => do return ⟨← draft.entries.openNext? path, path⟩
  | .assignment key value => do
      return { draft with entries := ← draft.entries.assignUnder? draft.header key value }

end Draft

/-- The document that statements build up. -/
def ofStatements? (statements : List Statement) : Option Toml := do
  return .inline (← statements.foldlM Draft.step Draft.start).entries

/-- The document that a text spells. A mark of the byte order may stand in front. -/
def parse? (text : String) : Option Toml := do
  let content := match text.toList with
    | '\uFEFF' :: rest => rest
    | other => other
  let (statements, _) ← Scan.document content
  ofStatements? statements

end MoveModule.Toml
