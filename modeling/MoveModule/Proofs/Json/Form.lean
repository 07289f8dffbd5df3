import MoveModule.Json.Form
import MoveModule.Proofs.Json.Token

/-! Exact forms. A value that was written in an exact form is read back as itself if and only
if the document is not nested too deep, so that the count of levels is exact as well. What is
put together from exact forms is exact. -/
namespace MoveModule.Json

/-- Items are as deep as the deepest of them, in whatever way they are split. -/
theorem itemsNesting_append (first second : List Json) :
    itemsNesting (first ++ second) = max (itemsNesting first) (itemsNesting second) := by
  induction first with
  | nil => simp [itemsNesting]
  | cons item rest ih => simp [itemsNesting, ih, Nat.max_assoc]

/-- The names of members add nothing to the depth. -/
theorem membersNesting_eq (members : List (Option String × Json)) :
    membersNesting members = itemsNesting (members.map Prod.snd) := by
  induction members with
  | nil => rfl
  | cons member rest ih => simp [membersNesting, itemsNesting, ih]

theorem nesting_text (content : String) : (text content).nesting = 0 := rfl

/-- The object around a value is one level. -/
theorem nesting_variant (name : String) (payload : Json) :
    (variant name payload).nesting = payload.nesting + 1 := by
  simp [variant, nesting, membersNesting]

/-- A name in front of a plain document gives a plain one. -/
theorem Plain.variant {payload : Json} (h : payload.Plain) (name : String) :
    (variant name payload).Plain :=
  .object (List.forall_mem_singleton.mpr rfl) (List.forall_mem_singleton.mpr h)

/-- What has been read exactly is still so when it becomes a part of another value. -/
theorem map_eq_some_of_exact {α β : Type} {read : Option α} {value : α} {condition : Prop}
    (h : ∀ {result}, read = some result ↔ condition ∧ value = result) (into : α → β)
    {result : β} : read.map into = some result ↔ condition ∧ into value = result := by
  simp only [Option.map_eq_some_iff, h]
  constructor
  · intro hRead
    obtain ⟨_, ⟨hCondition, rfl⟩, hResult⟩ := hRead
    exact ⟨hCondition, hResult⟩
  · intro hRead
    obtain ⟨hCondition, hResult⟩ := hRead
    exact ⟨_, ⟨hCondition, rfl⟩, hResult⟩

/-- Items are read one by one, with the same levels for each. -/
theorem mapM_map_eq_some {α : Type} {write : α → Json} {read : Json → Option α} {levels : Nat}
    (h : ∀ {item result}, read (write item) = some result ↔
      (write item).nesting ≤ levels ∧ item = result) {items result : List α} :
    (items.map write).mapM read = some result ↔
      itemsNesting (items.map write) ≤ levels ∧ items = result := by
  induction items generalizing result with
  | nil => simp [itemsNesting, eq_comm]
  | cons item rest ih =>
      simp only [List.map_cons, List.mapM_cons, itemsNesting, Nat.max_le, Option.bind_eq_bind,
        Option.bind_eq_some_iff, Option.pure_def, Option.some.injEq, h, ih]
      constructor
      · intro hRead
        obtain ⟨_, ⟨hItem, rfl⟩, _, ⟨hRest, rfl⟩, hResult⟩ := hRead
        exact ⟨⟨hItem, hRest⟩, hResult⟩
      · intro hRead
        obtain ⟨⟨hItem, hRest⟩, hResult⟩ := hRead
        exact ⟨_, ⟨hItem, rfl⟩, _, ⟨hRest, rfl⟩, hResult⟩

namespace Form

variable {α β : Type}

/-- What is written in the form is read as the value it was written for, unless more levels
than allowed would have to be opened. -/
structure Exact (form : Form α) : Prop where
  plain : ∀ value, (form.write value).Plain
  read_write : ∀ {levels : Nat} {value result : α},
    form.read levels (form.write value) = some result ↔
      (form.write value).nesting ≤ levels ∧ value = result

namespace Exact

/-- What was written is a value that the restriction lets through, so reading it back cannot fail
there. -/
theorem filterMap {form : Form α} (h : form.Exact) {into? : α → Option β} {back : β → α}
    (hBack : ∀ value, into? (back value) = some value) : (form.filterMap into? back).Exact where
  plain value := h.plain (back value)
  read_write := by
    intro levels value result
    change (form.read levels (form.write (back value)) >>= into?) = some result ↔
      (form.write (back value)).nesting ≤ levels ∧ value = result
    simp only [Option.bind_eq_bind, Option.bind_eq_some_iff, h.read_write]
    constructor
    · intro hRead
      obtain ⟨_, ⟨hLevels, rfl⟩, hInto⟩ := hRead
      rw [hBack, Option.some.injEq] at hInto
      exact ⟨hLevels, hInto⟩
    · intro hRead
      obtain ⟨hLevels, rfl⟩ := hRead
      exact ⟨_, ⟨hLevels, rfl⟩, hBack value⟩

/-- The same without a restriction: going into the other type and back gives the value again. -/
theorem map {form : Form α} (h : form.Exact) {into : α → β} {back : β → α}
    (hBack : ∀ value, into (back value) = value) : (form.map into back).Exact :=
  h.filterMap fun value => congrArg some (hBack value)

/-- A list takes one level for itself, and each item is read with the rest of the levels. -/
theorem list {form : Form α} (h : form.Exact) : form.list.Exact where
  plain items := .array (List.forall_mem_map.mpr fun item _ => h.plain item)
  read_write := by
    intro levels items result
    cases levels with
    | zero => simp [Form.list, nesting]
    | succ levels =>
        simp only [Form.list, nesting, Nat.add_le_add_iff_right]
        exact mapM_map_eq_some h.read_write

/-- Two values as an array. -/
theorem pair {first : Form α} {second : Form β} (hFirst : first.Exact) (hSecond : second.Exact) :
    (first.pair second).Exact where
  plain value := by
    refine .array ?_
    rw [List.forall_mem_cons, List.forall_mem_singleton]
    exact ⟨hFirst.plain value.1, hSecond.plain value.2⟩
  read_write := by
    intro levels value result
    cases levels with
    | zero => simp [Form.pair, nesting]
    | succ levels =>
        simp only [Form.pair, nesting, itemsNesting, Nat.add_le_add_iff_right, Nat.max_le,
          Nat.zero_le, and_true, Option.bind_eq_bind, Option.bind_eq_some_iff, Option.pure_def,
          Option.some.injEq, hFirst.read_write, hSecond.read_write]
        constructor
        · intro hRead
          obtain ⟨_, ⟨hLeft, rfl⟩, _, ⟨hRight, rfl⟩, rfl⟩ := hRead
          exact ⟨⟨hLeft, hRight⟩, rfl⟩
        · intro hRead
          obtain ⟨⟨hLeft, hRight⟩, rfl⟩ := hRead
          exact ⟨_, ⟨hLeft, rfl⟩, _, ⟨hRight, rfl⟩, rfl⟩

theorem array {form : Form α} (h : form.Exact) : form.array.Exact :=
  h.list.map fun _ => rfl

end Exact

theorem exact_bool : bool.Exact where
  plain value := .bool value
  read_write := by simp [bool, nesting]

/-- A number of a type fits into the type, so it is not refused for its size. -/
theorem exact_number {into : Nat → α} {back : α → Nat} (h : ∀ value, into (back value) = value) :
    (number into back).Exact where
  plain value := .nat (back value)
  read_write := by simp [number, nesting, h]

theorem exact_uint8 : uint8.Exact :=
  exact_number fun _ => UInt8.ofNat_toNat

theorem exact_uint16 : uint16.Exact :=
  exact_number fun _ => UInt16.ofNat_toNat

theorem exact_uint32 : uint32.Exact :=
  exact_number fun _ => UInt32.ofNat_toNat

theorem exact_uint64 : uint64.Exact :=
  exact_number fun _ => UInt64.ofNat_toNat

theorem exact_bitVec (width : Nat) : (bitVec width).Exact :=
  exact_number fun value => (BitVec.ofNat_toNat width value).trans value.setWidth_eq

theorem exact_text : text.Exact where
  plain content := .text content
  read_write := by simp [text, Json.text, nesting]

/-- Names have to be told apart. Then each is read back as what it is the name of, on any level. -/
theorem exact_name {nameOf : α → String} {ofName? : String → Option α}
    (h : ∀ value, ofName? (nameOf value) = some value) : (name nameOf ofName?).Exact where
  plain value := .text (nameOf value)
  read_write := by simp [name, Json.text, nesting, h]

end Form

namespace Fields

variable {α β : Type}

/-- What is written for the fields is read as the values they were written for, unless one of
them needs more levels than are left. -/
structure Exact (fields : Fields α) : Prop where
  length_write : ∀ value, (fields.write value).length = fields.names.length
  plain : ∀ value, ∀ document ∈ fields.write value, document.Plain
  read_write : ∀ {levels : Nat} {value : α} {slots : List (Option Json)}
    {result : α × List (Option Json)},
    fields.read levels ((fields.write value).map some ++ slots) = some result ↔
      itemsNesting (fields.write value) ≤ levels ∧ (value, slots) = result

/-- A field that has to be there always is when it was written. -/
theorem exact_required {form : Form α} (h : form.Exact) (name : String) :
    (required name form).Exact where
  length_write _ := rfl
  plain value := List.forall_mem_singleton.mpr (h.plain value)
  read_write := by
    intro levels value slots result
    simp only [required, List.map_cons, List.map_nil, List.singleton_append, itemsNesting,
      Nat.max_zero, Option.bind_eq_bind, Option.bind_eq_some_iff, Option.pure_def,
      Option.some.injEq, h.read_write]
    simp only [and_assoc, exists_and_left, exists_eq_left']

/-- A field with a default is written even if it has that value, so the default is not used in
reading it back. -/
theorem exact_withDefault {form : Form α} (h : form.Exact) (name : String) (default : α) :
    (withDefault name default form).Exact where
  length_write _ := rfl
  plain value := List.forall_mem_singleton.mpr (h.plain value)
  read_write := by
    intro levels value slots result
    simp only [withDefault, List.map_cons, List.map_nil, List.singleton_append, itemsNesting,
      Nat.max_zero, Option.bind_eq_bind, Option.bind_eq_some_iff, Option.pure_def,
      Option.some.injEq, h.read_write]
    simp only [and_assoc, exists_and_left, exists_eq_left']

/-- A value that may be missing must not be written in the way in which nothing is. -/
theorem exact_optional {form : Form α} (h : form.Exact) (hNull : ∀ value, form.write value ≠ .null)
    (name : String) : (optional name form).Exact where
  length_write value := by cases value <;> rfl
  plain value := by
    cases value with
    | none => exact List.forall_mem_singleton.mpr .null
    | some value => exact List.forall_mem_singleton.mpr (h.plain value)
  read_write := by
    intro levels value slots result
    cases value with
    | none => simp [optional, itemsNesting, nesting]
    | some value =>
        have hRead := @h.read_write levels value
        have hValue := hNull value
        simp only [optional, List.map_cons, List.map_nil, List.singleton_append, itemsNesting,
          Nat.max_zero]
        cases hDocument : form.write value with
        | null => exact absurd hDocument hValue
        | _ =>
            rw [hDocument] at hRead
            simp [Option.bind_eq_some_iff, hRead, and_assoc]

/-- The fields of both records stand in a row. The first ones take their own slots and leave the
others as they are. -/
theorem Exact.and {first : Fields α} {second : Fields β} (hFirst : first.Exact)
    (hSecond : second.Exact) : (first.and second).Exact where
  length_write value := by
    simp [Fields.and, hFirst.length_write, hSecond.length_write]
  plain value := by
    intro document hMember
    rcases List.mem_append.mp hMember with hMember | hMember
    · exact hFirst.plain value.1 document hMember
    · exact hSecond.plain value.2 document hMember
  read_write := by
    intro levels value slots result
    simp only [Fields.and, List.map_append, List.append_assoc, itemsNesting_append, Nat.max_le,
      Option.bind_eq_bind, Option.bind_eq_some_iff, Option.pure_def, Option.some.injEq,
      hFirst.read_write]
    constructor
    · intro hRead
      obtain ⟨_, ⟨hLeft, rfl⟩, _, hRest, hResult⟩ := hRead
      obtain ⟨hRight, rfl⟩ := hSecond.read_write.mp hRest
      exact ⟨⟨hLeft, hRight⟩, hResult⟩
    · intro hRead
      obtain ⟨⟨hLeft, hRight⟩, rfl⟩ := hRead
      exact ⟨_, ⟨hLeft, rfl⟩, _, hSecond.read_write.mpr ⟨hRight, rfl⟩, rfl⟩

/-- Every named value is found where the names are all different. -/
theorem map_lookup_zip {names : List String} {documents : List Json} (hNodup : names.Nodup)
    (hLength : documents.length = names.length) :
    names.map (fun name => ((names.map some).zip documents).lookup (some name)) =
      documents.map some := by
  induction names generalizing documents with
  | nil => simp [List.eq_nil_of_length_eq_zero hLength]
  | cons name rest ih =>
      obtain ⟨document, others, rfl⟩ := List.exists_cons_of_length_eq_add_one hLength
      obtain ⟨hName, hRest⟩ := List.nodup_cons.mp hNodup
      have hOthers := ih hRest (Nat.succ.inj hLength)
      have hSkip : ∀ other ∈ rest,
          (((name :: rest).map some).zip (document :: others)).lookup (some other) =
            ((rest.map some).zip others).lookup (some other) := by
        intro other hOther
        have hDifferent : (some other == some name) = false := by
          rw [beq_eq_false_iff_ne, ne_eq, Option.some.injEq]
          rintro rfl
          exact hName hOther
        rw [List.map_cons, List.zip_cons_cons, List.lookup_cons, hDifferent]
      rw [List.map_cons, List.map_congr_left hSkip, hOthers]
      simp

/-- What is written for a record has a place for each field. -/
theorem slots?_zip {names : List String} {documents : List Json} (hNodup : names.Nodup)
    (hLength : documents.length = names.length) :
    slots? names ((names.map some).zip documents) = some (documents.map some) := by
  have hNames : ((names.map some).zip documents).map Prod.fst = names.map some :=
    List.map_fst_zip (by simp [hLength])
  have hTexts : ((names.map some).zip documents).all (fun member => member.1.isSome) = true := by
    rw [List.all_eq_true]
    intro member hMember
    obtain ⟨name, -, hName⟩ := List.mem_map.mp (List.of_mem_zip hMember).1
    exact hName ▸ rfl
  have hOnce : names.all (fun name =>
      ((names.map some).zip documents).countP (fun member => member.1 == some name) ≤ 1) =
        true := by
    rw [List.all_eq_true]
    intro name _
    have hDifferent : (names.map some).Nodup :=
      List.Pairwise.map some (fun _ _ hNe hSame => hNe (Option.some.inj hSame)) hNodup
    have hCount := List.nodup_iff_count.mp hDifferent (some name)
    rw [← hNames, List.count, List.countP_map] at hCount
    exact decide_eq_true hCount
  rw [slots?, hTexts, hOnce, map_lookup_zip hNodup hLength]
  rfl

/-- A record is written as an object, which its fields read again. -/
theorem Exact.form {fields : Fields α} (h : fields.Exact) (hNodup : fields.names.Nodup) :
    fields.form.Exact where
  plain value := by
    refine .object ?_ ?_
    · intro member hMember
      obtain ⟨name, -, hName⟩ := List.mem_map.mp (List.of_mem_zip hMember).1
      exact hName ▸ rfl
    · intro member hMember
      exact h.plain value _ (List.of_mem_zip hMember).2
  read_write := by
    intro levels value result
    have hValues : ((fields.names.map some).zip (fields.write value)).map Prod.snd =
        fields.write value := List.map_snd_zip (by simp [h.length_write])
    have hNesting : (fields.form.write value).nesting = itemsNesting (fields.write value) + 1 := by
      rw [Fields.form, nesting, membersNesting_eq, hValues]
    have hSlots := slots?_zip hNodup (h.length_write value)
    rw [hNesting]
    cases levels with
    | zero => simp [Fields.form]
    | succ levels =>
        have hRead := @h.read_write levels value []
        rw [List.append_nil] at hRead
        simp only [Fields.form, hSlots, Option.bind_eq_bind, Option.bind_some,
          Option.bind_eq_some_iff, hRead, Nat.add_le_add_iff_right]
        constructor
        · intro hMatch
          obtain ⟨_, ⟨hLevels, rfl⟩, hResult⟩ := hMatch
          exact ⟨hLevels, Option.some.inj hResult⟩
        · intro hMatch
          obtain ⟨hLevels, rfl⟩ := hMatch
          exact ⟨_, ⟨hLevels, rfl⟩, rfl⟩

end Fields

end MoveModule.Json
