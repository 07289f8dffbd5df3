import MoveModule.Json.Parser
import MoveModule.Proofs.Json.Token

/-! A printed document is read back. Its tokens take the parser from a place where a value
is expected to the place behind this value, whatever is still open around it. -/
namespace MoveModule.Json

open MoveModule.Json.Parser

/-- The tokens of a document are taken as this document wherever a value is expected. -/
def Parsed (document : Json) : Prop :=
  ∀ (frames : List Frame) (later : List Token),
    (document.tokens ++ later).foldlM step (.value frames) =
      later.foldlM step (place document frames)

/-- No document starts with a closing bracket, so the first item of an array is taken like
any other value. -/
theorem foldlM_firstItem (document : Json) (frames : List Frame) (later : List Token) :
    (document.tokens ++ later).foldlM step (.firstItem frames) =
      (document.tokens ++ later).foldlM step (.value (.array [] :: frames)) := by
  cases document with
  | null | bool | nat | number | string => rfl
  | array items => cases items <;> rfl
  | object members => cases members <;> rfl

/-- Items behind others are added to those of the array that is open, the last one first. By
induction on the items. -/
theorem foldlM_itemsTokens {items : List Json} (hItems : ∀ item ∈ items, Parsed item)
    (sofar : List Json) (frames : List Frame) (later : List Token) :
    (itemsTokens items ++ later).foldlM step (.separator (.array sofar) frames) =
      later.foldlM step (.separator (.array (items.reverse ++ sofar)) frames) := by
  induction items generalizing sofar with
  | nil => rfl
  | cons item rest ih =>
      obtain ⟨hItem, hRest⟩ := List.forall_mem_cons.mp hItems
      have hComma : step (.separator (.array sofar) frames) .comma =
        some (.value (.array sofar :: frames)) := rfl
      rw [itemsTokens, List.cons_append, List.append_assoc, List.foldlM_cons, hComma]
      simp only [Option.bind_eq_bind, Option.bind_some]
      rw [hItem, place, ih hRest, List.reverse_cons, List.append_assoc, List.singleton_append]

/-- Members behind others are added to those of the object that is open. The name of each is held
until its value has been read. -/
theorem foldlM_membersTokens {members : List (Option String × Json)}
    (hValues : ∀ member ∈ members, Parsed member.2) (sofar : List (Option String × Json))
    (frames : List Frame) (later : List Token) :
    (membersTokens members ++ later).foldlM step (.separator (.object sofar none) frames) =
      later.foldlM step (.separator (.object (members.reverse ++ sofar) none) frames) := by
  induction members generalizing sofar with
  | nil => rfl
  | cons member rest ih =>
      obtain ⟨name, value⟩ := member
      obtain ⟨hValue, hRest⟩ := List.forall_mem_cons.mp hValues
      have hName : [.comma, .string name, .colon].foldlM step
          (.separator (.object sofar none) frames) =
        some (.value (.object sofar name :: frames)) := rfl
      have hTokens : membersTokens ((name, value) :: rest) ++ later =
          [.comma, .string name, .colon] ++ (value.tokens ++ (membersTokens rest ++ later)) := by
        simp [membersTokens]
      rw [hTokens, List.foldlM_append, hName]
      simp only [Option.bind_eq_bind, Option.bind_some]
      rw [hValue, place, ih hRest, List.reverse_cons, List.append_assoc, List.singleton_append]

/-- By induction on the document: its parts are read in the frame of what they stand in. -/
theorem Plain.parsed {document : Json} (hPlain : document.Plain) : Parsed document := by
  induction hPlain with
  | null | bool | nat | text => exact fun _ _ => rfl
  | @array items _ ih =>
      intro frames later
      cases items with
      | nil => rfl
      | cons first rest =>
          obtain ⟨hFirst, hRest⟩ := List.forall_mem_cons.mp ih
          have hOpen : step (.value frames) .openArray = some (.firstItem frames) := rfl
          have hClose (items : List Json) :
              (Token.closeArray :: later).foldlM step (.separator (.array items) frames) =
                later.foldlM step (place (.array items.reverse) frames) := rfl
          rw [tokens, List.cons_append, List.append_assoc, List.append_assoc, List.foldlM_cons,
            hOpen]
          simp only [Option.bind_eq_bind, Option.bind_some]
          rw [foldlM_firstItem, hFirst, place, foldlM_itemsTokens hRest, List.singleton_append,
            hClose, List.reverse_append, List.reverse_reverse, List.reverse_singleton,
            List.singleton_append]
  | @object members _ _ ih =>
      intro frames later
      rcases members with _ | ⟨⟨name, first⟩, rest⟩
      · rfl
      · obtain ⟨hFirst, hRest⟩ := List.forall_mem_cons.mp ih
        have hOpen : [.openObject, .string name, .colon].foldlM step (.value frames) =
          some (.value (.object [] name :: frames)) := rfl
        have hClose (members : List (Option String × Json)) :
            (Token.closeObject :: later).foldlM step (.separator (.object members none) frames) =
              later.foldlM step (place (.object members.reverse) frames) := rfl
        have hTokens : tokens (.object ((name, first) :: rest)) ++ later =
            [.openObject, .string name, .colon] ++
              (first.tokens ++ (membersTokens rest ++ .closeObject :: later)) := by
          simp [tokens]
        rw [hTokens, List.foldlM_append, hOpen]
        simp only [Option.bind_eq_bind, Option.bind_some]
        rw [hFirst, place, foldlM_membersTokens hRest, hClose, List.reverse_append,
          List.reverse_reverse, List.reverse_singleton, List.singleton_append]

/-- A text is read as the document whose tokens it consists of. -/
theorem Plain.parse?_eq {document : Json} (hPlain : document.Plain) {text : String}
    (hText : Spells text document.tokens.reverse) : parse? text = some document := by
  have hParsed := hPlain.parsed [] []
  rw [List.append_nil] at hParsed
  rw [parse?, hText.tokens?_eq, List.reverse_reverse]
  simp [ofTokens?, start, hParsed, place, finish]

end MoveModule.Json
