import MoveModule.Plan
import MoveModule.Proofs.Template.Update

/-! Several changes in a row, made in a module or in its file. In the file every change reads
the module, checks it and writes it again. That comes to the same as long as the files between
the changes are short enough to be read. -/
namespace MoveModule.Template

/-- What every change of a module keeps: the module passes all checks, and a reader takes what
is in it. Only its file may be too long. -/
structure Intact (module : Module) : Prop where
  storable : module.Storable
  sound : module.Sound

namespace Intact

variable {module changed : Module} {bytes : List UInt8}

/-- A module that was read from a file is intact. -/
theorem of_deserialize (h : deserialize bytes = .ok module) : Intact module :=
  ⟨(canonical_of_deserialize h).storable, Module.sound_of_verify (deserialize_eq_ok.mp h).2⟩

/-- An intact module passes all checks, so what is written is its encoding. -/
theorem serialize_eq (h : Intact module) : serialize module = .ok module.encode :=
  serialize_eq_ok.mpr ⟨Module.verify_of_sound h.sound, rfl⟩

/-- The encoding of an intact module is read as the module again. It has to be shorter than 2^32
bytes, since the directory cannot tell places beyond that. -/
theorem deserialize_encode (h : Intact module) (hSize : module.encode.length < UInt32.size) :
    deserialize module.encode = .ok module :=
  deserialize_of_serialize (h.storable.canonical hSize) h.serialize_eq

/-- New names are valid and all different, and nothing else has changed. -/
theorem rename (h : Intact module) {pairs : List (String × String)}
    (hRename : module.rename pairs = .ok changed) : Intact changed :=
  ⟨h.storable.rename hRename, h.sound.rename hRename⟩

/-- A constant was exchanged for another value of its own type, and nothing else has changed. -/
theorem replaceConstant (h : Intact module) {type : ConstantType} {expected new : List UInt8}
    {place : Nat} (hReplace : module.replaceConstant type expected new = .ok (changed, place)) :
    Intact changed :=
  ⟨h.storable.replaceConstant hReplace, h.sound.replaceConstant hReplace⟩

end Intact

/-- One change of a module. -/
inductive Edit
  | rename (pairs : List (String × String))
  | replace (patch : PlannedPatch)

namespace Edit

/-- The change in a module. -/
def change (module : Module) : Edit → Option Module
  | rename pairs => (module.rename pairs).toOption
  | replace patch =>
      (module.replaceConstant patch.type patch.expected patch.new).toOption.map Prod.fst

/-- The change in a file. The type of a constant is given by its tag. -/
def update (bytes : List UInt8) : Edit → Except Error (List UInt8)
  | rename pairs => updateIdentifiers bytes pairs
  | replace patch => updateConstants bytes patch.tag patch.expected patch.new

/-- The type of a constant is the one that its tag names. -/
def Tagged : Edit → Prop
  | rename _ => True
  | replace patch => ConstantType.ofTag patch.tag = .ok patch.type

variable {module changed : Module} {bytes result : List UInt8}

/-- An edit of names does what the renaming of a module does. -/
theorem change_rename {pairs : List (String × String)} :
    (rename pairs).change module = some changed ↔ module.rename pairs = .ok changed :=
  Except.toOption_eq_some

/-- An edit of a constant replaces the first one that fits. The place of it is forgotten. -/
theorem change_replace {patch : PlannedPatch} :
    (replace patch).change module = some changed ↔ ∃ place,
      module.replaceConstant patch.type patch.expected patch.new = .ok (changed, place) := by
  simp only [change, Option.map_eq_some_iff, Except.toOption_eq_some, Prod.exists]
  constructor
  · intro h
    obtain ⟨_, place, hReplace, rfl⟩ := h
    exact ⟨place, hReplace⟩
  · intro h
    obtain ⟨place, hReplace⟩ := h
    exact ⟨changed, place, hReplace, rfl⟩

/-- A change in the file of a module gives the file of the changed module. -/
theorem update_eq_ok {edit : Edit} (hTag : edit.Tagged) (hModule : deserialize bytes = .ok module) :
    edit.update bytes = .ok result ↔
      ∃ changed, edit.change module = some changed ∧ changed.encode = result := by
  have hSame {other : Module} (h : deserialize bytes = .ok other) : other = module :=
    Except.ok.inj (h.symm.trans hModule)
  cases edit with
  | rename pairs =>
      simp only [update, updateIdentifiers_eq_ok, change_rename]
      constructor
      · intro h
        obtain ⟨other, changed, hOther, hRename, hResult⟩ := h
        obtain rfl := hSame hOther
        exact ⟨changed, hRename, (serialize_eq_ok.mp hResult).2⟩
      · intro h
        obtain ⟨changed, hRename, rfl⟩ := h
        have hChanged := (Intact.of_deserialize hModule).rename hRename
        exact ⟨module, changed, hModule, hRename, hChanged.serialize_eq⟩
  | replace patch =>
      simp only [update, updateConstants_eq_ok, change_replace]
      constructor
      · intro h
        obtain ⟨type, other, changed, place, hType, hOther, hReplace, hResult⟩ := h
        obtain rfl := hSame hOther
        obtain rfl : type = patch.type := Except.ok.inj (hType.symm.trans hTag)
        exact ⟨changed, ⟨place, hReplace⟩, (serialize_eq_ok.mp hResult).2⟩
      · intro h
        obtain ⟨changed, ⟨place, hReplace⟩, rfl⟩ := h
        have hChanged := (Intact.of_deserialize hModule).replaceConstant hReplace
        exact ⟨patch.type, module, changed, place, hTag, hModule, hReplace, hChanged.serialize_eq⟩

end Edit

variable {module changed : Module}

/-- Every edit that succeeds leaves the module intact. -/
theorem Intact.change (hModule : Intact module) {edit : Edit}
    (hChange : edit.change module = some changed) : Intact changed := by
  cases edit with
  | rename pairs => exact hModule.rename (Edit.change_rename.mp hChange)
  | replace patch =>
      obtain ⟨place, hReplace⟩ := Edit.change_replace.mp hChange
      exact hModule.replaceConstant hReplace

/-- Edits in a row, by induction on them: each is made on an intact module. -/
theorem Intact.foldlM_change {edits : List Edit} (hModule : Intact module)
    (hChanges : edits.foldlM Edit.change module = some changed) : Intact changed := by
  induction edits generalizing module with
  | nil =>
      obtain rfl : module = changed := Option.some.inj hChanges
      exact hModule
  | cons edit rest ih =>
      rw [List.foldlM_cons, Option.bind_eq_bind, Option.bind_eq_some_iff] at hChanges
      obtain ⟨middle, hChange, hRest⟩ := hChanges
      exact ih (hModule.change hChange) hRest

/-- The files between the first change and the last are short enough to be read. -/
def ShortBetween (edits : List Edit) (bytes : List UInt8) : Prop :=
  ∀ count, 0 < count → count < edits.length → ∀ middle,
    (edits.take count).foldlM Edit.update bytes = .ok middle → middle.length < UInt32.size

/-- After the first change the same goes for the other ones, and the file is short if there are
any. -/
theorem ShortBetween.tail {edit : Edit} {rest : List Edit} {bytes middle : List UInt8}
    (hShort : ShortBetween (edit :: rest) bytes) (hFirst : edit.update bytes = .ok middle) :
    (rest ≠ [] → middle.length < UInt32.size) ∧ ShortBetween rest middle := by
  have hRest (count : Nat) : ((edit :: rest).take (count + 1)).foldlM Edit.update bytes =
      (rest.take count).foldlM Edit.update middle := by
    rw [List.take_succ_cons, List.foldlM_cons, hFirst, Except.ok_bind]
  refine ⟨?_, ?_⟩
  · intro hSome
    have hLength : 1 < (edit :: rest).length :=
      Nat.succ_lt_succ (List.length_pos_iff.mpr hSome)
    apply hShort 1 Nat.one_pos hLength
    rw [hRest]
    rfl
  · intro count hPos hCount later hUpdates
    apply hShort (count + 1) (Nat.succ_pos count) (Nat.succ_lt_succ hCount)
    rw [hRest, hUpdates]

/-- Changes in a file give the file of what the same changes make of its module. They fail at
the same change, since no check between them can fail. The file has to be read only if there
is a change to be made, so that the last of the files may be of any length. -/
theorem foldlM_update_eq_ok {edits : List Edit} {bytes result : List UInt8}
    (hTags : ∀ edit ∈ edits, edit.Tagged) (hModule : Intact module)
    (hBytes : module.encode = bytes) (hRead : edits ≠ [] → deserialize bytes = .ok module)
    (hShort : ShortBetween edits bytes) :
    edits.foldlM Edit.update bytes = .ok result ↔
      ∃ changed, edits.foldlM Edit.change module = some changed ∧ changed.encode = result := by
  induction edits generalizing module bytes with
  | nil => simp [← hBytes, Except.pure_eq_ok]
  | cons edit rest ih =>
      rw [List.forall_mem_cons] at hTags
      obtain ⟨hTag, hTags⟩ := hTags
      have hUpdate {middle : List UInt8} :=
        @Edit.update_eq_ok _ _ middle _ hTag (hRead (List.cons_ne_nil edit rest))
      have hLater {middle : Module} (hChange : edit.change module = some middle) :
          rest.foldlM Edit.update middle.encode = .ok result ↔
            ∃ changed, rest.foldlM Edit.change middle = some changed ∧
              changed.encode = result := by
        have hMiddle := hModule.change hChange
        obtain ⟨hSize, hBetween⟩ := hShort.tail (hUpdate.mpr ⟨middle, hChange, rfl⟩)
        exact ih hTags hMiddle rfl (fun hSome => hMiddle.deserialize_encode (hSize hSome)) hBetween
      simp only [List.foldlM_cons, Except.bind_eq_ok, Option.bind_eq_bind, Option.bind_eq_some_iff]
      constructor
      · intro h
        obtain ⟨_, hFirst, hUpdates⟩ := h
        obtain ⟨middle, hChange, rfl⟩ := hUpdate.mp hFirst
        obtain ⟨changed, hChanges, hResult⟩ := (hLater hChange).mp hUpdates
        exact ⟨changed, ⟨middle, hChange, hChanges⟩, hResult⟩
      · intro h
        obtain ⟨changed, ⟨middle, hChange, hChanges⟩, hResult⟩ := h
        exact ⟨middle.encode, hUpdate.mpr ⟨middle, hChange, rfl⟩,
          (hLater hChange).mpr ⟨changed, hChanges, hResult⟩⟩

end MoveModule.Template
