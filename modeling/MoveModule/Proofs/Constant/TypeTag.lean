import MoveModule.Constant.Value
import MoveModule.Proofs.Constant.Type
import MoveModule.Proofs.Signature.Encoding
import MoveModule.Proofs.Text.Blank

/-! The grammar of type tags. A tag is parsed from both of its ends, one pair of brackets after the
other, and it is taken for a type if and only if it spells the type by the grammar. The limit on
vectors is the one that the bytes of a type have. -/
namespace MoveModule.ConstantType

open Binary

/-- The names of the types that are no vectors, in both spellings. -/
def leafNames : List (String × ConstantType) :=
  [("Bool", bool), ("bool", bool),
    ("U8", integer .w8), ("u8", integer .w8),
    ("U16", integer .w16), ("u16", integer .w16),
    ("U32", integer .w32), ("u32", integer .w32),
    ("U64", integer .w64), ("u64", integer .w64),
    ("U128", integer .w128), ("u128", integer .w128),
    ("U256", integer .w256), ("u256", integer .w256),
    ("Address", address), ("address", address)]

/-- What stands around the item of a vector, in both spellings. -/
def brackets : List (String × String) :=
  [("Vector(", ")"), ("vector<", ">")]

/-- The text spells the type. There may be blanks around each type in it, and every vector may have
brackets of its own kind. -/
inductive Spells : List Char → ConstantType → Prop
  | leaf {name : String} {type : ConstantType} {text : List Char}
      (hName : (name, type) ∈ leafNames) (hText : Text.Padded name.toList text) : Spells text type
  | vector {opening closing : String} {item text : List Char} {type : ConstantType}
      (hBrackets : (opening, closing) ∈ brackets) (hItem : Spells item type)
      (hText : Text.Padded (opening.toList ++ item ++ closing.toList) text) :
      Spells text (.vector type)

/-- A type is spelled in the way in which it is shown. -/
theorem spells_display (type : ConstantType) : Spells type.display.toList type := by
  induction type with
  | bool => exact .leaf (by decide) (.refl _)
  | integer width => exact .leaf (by cases width <;> decide) (.refl _)
  | address => exact .leaf (by decide) (.refl _)
  | vector item ih =>
      have hBrackets : ("Vector(", ")") ∈ brackets := by decide
      refine .vector hBrackets ih ?_
      rw [display, String.toList_append, String.toList_append]
      exact .refl _

/-! ### Names and brackets -/

/-- Types that are named in documents are no vectors, and are shown by the same name. -/
theorem eq_display_of_ofName? {name : String} {type : ConstantType} (h : ofName? name = some type) :
    type.layers = 0 ∧ name = type.display := by
  unfold ofName? at h
  split at h
  · obtain rfl := Option.some.inj h
    exact ⟨rfl, rfl⟩
  · obtain rfl := Option.some.inj h
    exact ⟨rfl, rfl⟩
  · obtain ⟨width, hFound, rfl⟩ := Option.map_eq_some_iff.mp h
    have hName := List.find?_some hFound
    exact ⟨rfl, (eq_of_beq hName).symm⟩

/-- The name in messages is in the table, and with a small letter too. -/
theorem mem_leafNames {type : ConstantType} (hLayers : type.layers = 0) {first : Char}
    {rest : List Char} (hName : type.display.toList = first :: rest) :
    (String.ofList (first :: rest), type) ∈ leafNames ∧
      (String.ofList (first.toLower :: rest), type) ∈ leafNames := by
  cases type with
  | vector item => cases hLayers
  | integer width =>
      cases width <;>
        simp only [display, Width.name, String.reduceToList, List.cons.injEq] at hName <;>
        obtain ⟨rfl, rfl⟩ := hName <;> decide
  | bool | address =>
      simp only [display, String.reduceToList, List.cons.injEq] at hName
      obtain ⟨rfl, rfl⟩ := hName
      decide

/-- A word is one of the names of types without vectors, letter by letter. -/
theorem ofWord?_eq_some {word : List Char} {type : ConstantType} :
    ofWord? word = some type ↔ ∃ name, (name, type) ∈ leafNames ∧ name.toList = word := by
  constructor
  · intro h
    cases word with
    | nil => cases h
    | cons first rest =>
        obtain ⟨hLayers, hName⟩ := eq_display_of_ofName? h
        have hText : type.display.toList = first.toUpper :: rest := by
          rw [← hName, String.toList_ofList]
        obtain ⟨hLarge, hSmall⟩ := mem_leafNames hLayers hText
        refine ⟨String.ofList (first :: rest), ?_, String.toList_ofList⟩
        by_cases hFirst : first.toUpper = first
        · rwa [hFirst] at hLarge
        · rwa [Text.toLower_toUpper hFirst] at hSmall
  · rintro ⟨name, hName, rfl⟩
    have hNames : ∀ entry ∈ leafNames, ofWord? entry.1.toList = some entry.2 := by decide
    exact hNames _ hName

theorem layers_of_ofWord? {word : List Char} {type : ConstantType}
    (h : ofWord? word = some type) : type.layers = 0 := by
  cases word with
  | nil => cases h
  | cons first rest => exact (eq_display_of_ofName? h).1

/-- A vector is a text between one of the pairs of brackets, which do not overlap. -/
theorem vectorItem?_eq_some {text item : List Char} :
    vectorItem? text = some item ↔
      ∃ opening closing, (opening, closing) ∈ brackets ∧
        opening.toList ++ item ++ closing.toList = text := by
  have hEither : (∃ opening closing, (opening, closing) ∈ brackets ∧
        opening.toList ++ item ++ closing.toList = text) ↔
      Text.unwrap? "Vector(".toList ")".toList text = some item ∨
        Text.unwrap? "vector<".toList ">".toList text = some item := by
    simp only [Text.unwrap?_eq_some]
    constructor
    · rintro ⟨opening, closing, hBrackets, hText⟩
      simp only [brackets, List.mem_cons, List.not_mem_nil, or_false, Prod.mk.injEq] at hBrackets
      rcases hBrackets with ⟨rfl, rfl⟩ | ⟨rfl, rfl⟩
      · exact .inl hText
      · exact .inr hText
    · intro h
      rcases h with hText | hText
      · exact ⟨_, _, List.mem_cons_self, hText⟩
      · exact ⟨_, _, List.mem_cons_of_mem _ List.mem_cons_self, hText⟩
  rw [hEither, vectorItem?]
  cases hRound : Text.unwrap? "Vector(".toList ")".toList text with
  | none => simp
  | some found =>
      -- A text has brackets of one kind at most, since their first letters differ.
      have hAngle : Text.unwrap? "vector<".toList ">".toList text ≠ some item := by
        rw [ne_eq, Text.unwrap?_eq_some, ← Text.unwrap?_eq_some.mp hRound]
        simp
      simp only [hAngle, or_false]

/-- No name has a blank at either end. -/
theorem tight_leaf {name : String} {type : ConstantType} (hName : (name, type) ∈ leafNames) :
    Text.Tight name.toList := by
  have hNames : ∀ entry ∈ leafNames, Text.Tight entry.1.toList := by decide
  exact hNames _ hName

/-- No name is taken for a vector, since none ends in a closing bracket. -/
theorem vectorItem?_leaf {name : String} {type : ConstantType} (hName : (name, type) ∈ leafNames) :
    vectorItem? name.toList = none := by
  have hNames : ∀ entry ∈ leafNames, vectorItem? entry.1.toList = none := by decide
  exact hNames _ hName

/-- Brackets are not blank, so there is nothing to cut off around them. -/
theorem tight_vector {opening closing : String} (hBrackets : (opening, closing) ∈ brackets)
    (item : List Char) : Text.Tight (opening.toList ++ item ++ closing.toList) := by
  have hTight : ∀ pair ∈ brackets, Text.Tight pair.1.toList ∧ Text.Tight pair.2.toList := by decide
  obtain ⟨hOpening, hClosing⟩ := hTight _ hBrackets
  exact hOpening.append hClosing item

/-- What one step of the parser finds is what stands at the top of a derivation. -/
theorem spells_iff {text : List Char} {type : ConstantType} :
    Spells text type ↔
      match vectorItem? (Text.trim text) with
      | some item => ∃ inner, Spells item inner ∧ type = vector inner
      | none => ofWord? (Text.trim text) = some type := by
  constructor
  · intro h
    cases h with
    | leaf hName hText =>
        rw [hText.trim_eq (tight_leaf hName), vectorItem?_leaf hName]
        exact ofWord?_eq_some.mpr ⟨_, hName, rfl⟩
    | vector hBrackets hItem hText =>
        rw [hText.trim_eq (tight_vector hBrackets _),
          vectorItem?_eq_some.mpr ⟨_, _, hBrackets, rfl⟩]
        exact ⟨_, hItem, rfl⟩
  · intro h
    have hText := Text.padded_trim text
    cases hVector : vectorItem? (Text.trim text) with
    | some item =>
        simp only [hVector] at h
        obtain ⟨opening, closing, hBrackets, hTrim⟩ := vectorItem?_eq_some.mp hVector
        obtain ⟨inner, hItem, rfl⟩ := h
        exact .vector hBrackets hItem (hTrim ▸ hText)
    | none =>
        simp only [hVector] at h
        obtain ⟨name, hName, hTrim⟩ := ofWord?_eq_some.mp h
        exact .leaf hName (hTrim ▸ hText)

/-! ### Tags -/

/-- A tag is parsed with the vectors around it that have been found before. -/
theorem ofTagWithin?_eq_some {levels outer : Nat} {text : List Char} {type : ConstantType} :
    ofTagWithin? levels outer text = some type ↔
      ∃ inner, Spells text inner ∧ inner.layers < levels ∧ type = wrap outer inner := by
  induction levels generalizing outer text with
  | zero => simp [ofTagWithin?]
  | succ levels ih =>
      simp only [ofTagWithin?, @spells_iff text]
      cases vectorItem? (Text.trim text) with
      | some item =>
          refine ih.trans ⟨?_, ?_⟩
          · rintro ⟨inner, hItem, hLayers, rfl⟩
            exact ⟨vector inner, ⟨inner, hItem, rfl⟩, Nat.succ_lt_succ hLayers, rfl⟩
          · rintro ⟨_, ⟨inner, hItem, rfl⟩, hLayers, rfl⟩
            exact ⟨inner, hItem, Nat.lt_of_succ_lt_succ hLayers, rfl⟩
      | none =>
          refine Option.map_eq_some_iff.trans (exists_congr fun inner => ?_)
          refine and_congr_right fun hWord => ?_
          have hLayers : inner.layers < levels + 1 := by
            rw [layers_of_ofWord? hWord]
            exact Nat.succ_pos levels
          simp [hLayers, eq_comm]

/-- A tag is read as the type that it spells, as long as no more layers are spelled than a type may
have. -/
theorem ofTag?_eq_some {tag : String} {type : ConstantType} :
    ofTag? tag = some type ↔ Spells tag.toList type ∧ type.layers < maxTokenDepth := by
  rw [ofTag?, ofTagWithin?_eq_some]
  simp [wrap]

/-- A type has a level for each vector around it and one for what is in them. -/
theorem depth_token (type : ConstantType) : type.token.depth = type.layers + 1 := by
  induction type with
  | vector item ih => simp [token, SignatureToken.depth, ih, layers]
  | bool | integer width | address => rfl

/-- Version 6 has all widths, so only the number of layers decides. -/
theorem readable_six_iff {type : ConstantType} : type.Readable 6 ↔ type.layers ≤ 255 := by
  have hAllowed : type.token.AllowedIn 6 := SignatureToken.allowedIn_iff.mpr (.inl (by decide))
  have hLimit : type.layers + 1 ≤ maxTokenDepth ↔ type.layers ≤ 255 := Nat.succ_le_succ_iff
  rw [Readable, SignatureToken.Readable, depth_token, hLimit]
  exact and_iff_left hAllowed

/-- A tag is taken for the type that it spells, if there are no more than 255 vectors in it. All
other tags are refused. So the name of a type can be used as a tag if and only if the type can be
read from its bytes. -/
theorem ofTag_eq_ok_iff_spells (tag : String) (type : ConstantType) :
    (ofTag tag = .ok type ↔ Spells tag.toList type ∧ type.layers ≤ 255) ∧
    (ofTag tag = .error (.unknownTypeTag tag) ↔
      ¬ ∃ found, Spells tag.toList found ∧ found.layers ≤ 255) ∧
    (ofTag type.display = .ok type ↔ type.layers ≤ 255) ∧
    ((∃ next, codec.read 6 (Cursor.ofBytes (codec.write type)) = .ok type next) ↔
      type.layers ≤ 255) := by
  have hLayers {found : ConstantType} : found.layers < maxTokenDepth ↔ found.layers ≤ 255 :=
    Nat.lt_succ_iff
  have hOk {tag : String} {found : ConstantType} :
      ofTag tag = .ok found ↔ Spells tag.toList found ∧ found.layers ≤ 255 := by
    rw [← hLayers, ← ofTag?_eq_some, ofTag]
    cases ofTag? tag <;> simp
  refine ⟨hOk, ?_, ?_, ?_⟩
  · simp only [← hOk, ofTag]
    cases ofTag? tag <;> simp
  · rw [hOk]
    exact and_iff_right (spells_display type)
  · simp only [read_eq_ok, readable_six_iff]
    simp [codec]

-- Blanks of every kind may stand in a tag, and the brackets may be of both kinds.
example : ofTag? " vector< Vector(u8)\u00A0>" = some (vector (vector (integer .w8))) := by decide

end MoveModule.ConstantType
