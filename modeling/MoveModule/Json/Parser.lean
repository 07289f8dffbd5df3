import MoveModule.Json.Token

/-! Documents from tokens. The arrays and objects that are still open form a
stack, so that no depth of nesting is too much for the reading itself. -/
namespace MoveModule.Json

/-- An array or object that is still open. Its parts are held from the last back. -/
inductive Frame
  | array (items : List Json)
  /-- An object together with the name that the next value gets. -/
  | object (members : List (Option String × Json)) (name : Option String)

/-- What may come next, together with the open arrays and objects, the innermost
first. -/
inductive Parser
  | value (frames : List Frame)
  /-- After an opening bracket. -/
  | firstItem (frames : List Frame)
  /-- After an opening brace. -/
  | firstName (frames : List Frame)
  | name (members : List (Option String × Json)) (frames : List Frame)
  | colon (members : List (Option String × Json)) (name : Option String) (frames : List Frame)
  /-- After an item of the innermost array or object. -/
  | separator (innermost : Frame) (frames : List Frame)
  | complete (document : Json)

namespace Parser

def start : Parser :=
  .value []

/-- Puts a whole value where one was expected. -/
def place (item : Json) : List Frame → Parser
  | [] => .complete item
  | .array items :: frames => .separator (.array (item :: items)) frames
  | .object members key :: frames => .separator (.object ((key, item) :: members) none) frames

/-- Takes a token where a value is expected. -/
def enter (frames : List Frame) : Token → Option Parser
  | .openArray => some (.firstItem frames)
  | .openObject => some (.firstName frames)
  | .string text => some (place (.string text) frames)
  | .scalar item => some (place item frames)
  | _ => none

/-- Takes the next token. -/
def step : Parser → Token → Option Parser
  | .value frames, token => enter frames token
  | .firstItem frames, .closeArray => some (place (.array []) frames)
  | .firstItem frames, token => enter (.array [] :: frames) token
  | .firstName frames, .closeObject => some (place (.object []) frames)
  | .firstName frames, .string key => some (.colon [] key frames)
  | .name members frames, .string key => some (.colon members key frames)
  | .colon members key frames, .colon => some (.value (.object members key :: frames))
  | .separator (.array items) frames, .comma => some (.value (.array items :: frames))
  | .separator (.array items) frames, .closeArray =>
      some (place (.array items.reverse) frames)
  | .separator (.object members _) frames, .comma => some (.name members frames)
  | .separator (.object members _) frames, .closeObject =>
      some (place (.object members.reverse) frames)
  | _, _ => none

/-- The document, once the tokens have ended. -/
def finish : Parser → Option Json
  | .complete document => some document
  | _ => none

end Parser

/-- The document that tokens spell. -/
def ofTokens? (tokens : List Token) : Option Json := do
  (← tokens.foldlM Parser.step Parser.start).finish

/-- The document that a text spells. -/
def parse? (text : String) : Option Json := do
  ofTokens? (← tokens? text.toList)

end MoveModule.Json
