import MoveModule.Constant.Type
import MoveModule.Proofs.Signature

/-! Which types of constants can be read. They are those whose tokens can be read in a
signature. -/
namespace MoveModule.ConstantType

open Binary

/-- A reader for the version takes the type. -/
def Readable (type : ConstantType) (version : UInt32) : Prop :=
  type.token.Readable version

theorem write_ne_nil (type : ConstantType) : type.write ≠ [] := by
  cases type <;> simp [write]

/-- The first bytes of the types that are no integers. -/
def tags : List UInt8 :=
  [0x01, 0x05, 0x0A]

/-- To show something of every first byte it is shown for the type that each of these bytes
announces and for all other bytes, which are left to the integers. -/
theorem tag_cases {motive : UInt8 → Prop} (bool : motive 0x01) (address : motive 0x05)
    (vector : motive 0x0A) (other : ∀ tag, tag ∉ tags → motive tag) (tag : UInt8) :
    motive tag := by
  by_cases hTag : tag ∈ tags
  · simp only [tags, List.mem_cons, List.not_mem_nil, or_false] at hTag
    rcases hTag with rfl | rfl | rfl
    all_goals assumption
  · exact other tag hTag

section

variable {version : UInt32} {inner : Read ConstantType} {outer start : Nat}

/-- Behind any other byte there is an integer of the width that the byte stands for, as long as
the version has it. -/
theorem readTagged_other {tag : UInt8} (hOther : tag ∉ tags) :
    readTagged version inner outer start tag =
      match Width.ofTag? tag with
      | some width =>
          if width.allowedIn version = true then pure (wrap outer (integer width))
          else throw (.unsupportedInVersion "u16/u32/u256 constant" version start)
      | none => throw (.invalidTag "constant type" tag start) := by
  have hNot {byte : UInt8} (hByte : byte ∈ tags) : tag ≠ byte := fun h => hOther (h ▸ hByte)
  rw [readTagged]
  all_goals first
    | rfl
    | exact hNot (by decide)

/-- No width shares its byte with another type, so that its byte is read as the width. -/
theorem readTagged_width (width : Width) :
    readTagged version inner outer start width.tag =
      if width.allowedIn version = true then pure (wrap outer (integer width))
      else throw (.unsupportedInVersion "u16/u32/u256 constant" version start) := by
  have hOther : width.tag ∉ tags := by cases width <;> decide
  rw [readTagged_other hOther, Width.ofTag?_tag]

end

/-- The type consists of `outer` vectors that have been read before and of one that stands in front
of the cursor, of as many levels as may still be nested. -/
def ReadFrom (version : UInt32) (levels outer : Nat) (cursor next : Cursor)
    (type : ConstantType) : Prop :=
  ∃ inner, type = wrap outer inner ∧ inner.token.depth ≤ levels ∧
    inner.token.AllowedIn version ∧ inner.write <+: cursor.rest ∧
    next = cursor.advance inner.write.length

section

variable {version : UInt32} {levels outer : Nat} {cursor next : Cursor} {type : ConstantType}

/-- What is read is a type whose item has been read with a level less and a vector more. -/
theorem readWithin_succ_sound
    (hVector : ∀ {cursor next : Cursor} {type : ConstantType},
      readWithin version levels (outer + 1) cursor = .ok type next →
        ReadFrom version levels (outer + 1) cursor next type)
    (h : readWithin version (levels + 1) outer cursor = .ok type next) :
    ReadFrom version (levels + 1) outer cursor next type := by
  simp only [readWithin, Read.bind_eq_ok, Read.offset_eq_ok, Read.byte_eq_ok] at h
  obtain ⟨_, _, ⟨rfl, rfl⟩, tag, _, ⟨hByte, rfl⟩, hRead⟩ := h
  cases tag using tag_cases with
  | bool =>
      obtain ⟨rfl, rfl⟩ := Read.pure_eq_ok.mp hRead
      exact ⟨bool, rfl, Nat.le_add_left 1 levels, SignatureToken.allowedIn_bool, hByte, rfl⟩
  | address =>
      obtain ⟨rfl, rfl⟩ := Read.pure_eq_ok.mp hRead
      exact ⟨address, rfl, Nat.le_add_left 1 levels, SignatureToken.allowedIn_address, hByte, rfl⟩
  | vector =>
      obtain ⟨item, rfl, hDepth, hAllowed, hPrefix, rfl⟩ := hVector hRead
      refine ⟨vector item, rfl, Nat.succ_le_succ hDepth, ?_, ?_, ?_⟩
      · rwa [token, SignatureToken.allowedIn_vector]
      · exact Cursor.cons_prefix_rest_iff.mpr ⟨hByte, hPrefix⟩
      · simp [write, Nat.add_comm]
  | other tag hOther =>
      rw [readTagged_other hOther] at hRead
      cases hWidth : Width.ofTag? tag with
      | none => simp [hWidth] at hRead
      | some width =>
          obtain rfl := Width.tag_of_ofTag? hWidth
          simp only [hWidth, Read.ite_eq_ok, Read.pure_eq_ok, Read.throw_eq_ok, and_false,
            or_false] at hRead
          obtain ⟨hAllowed, rfl, rfl⟩ := hRead
          exact ⟨integer width, rfl, Nat.le_add_left 1 levels,
            SignatureToken.allowedIn_integer.mpr hAllowed, hByte, rfl⟩

/-- The bytes of a type are read behind the vectors around it, with a level for each vector that
they begin with. -/
theorem readWithin_succ_complete
    (hVector : ∀ {cursor next : Cursor} {type : ConstantType},
      ReadFrom version levels (outer + 1) cursor next type →
        readWithin version levels (outer + 1) cursor = .ok type next)
    (h : ReadFrom version (levels + 1) outer cursor next type) :
    readWithin version (levels + 1) outer cursor = .ok type next := by
  obtain ⟨inner, rfl, hDepth, hAllowed, hPrefix, rfl⟩ := h
  simp only [readWithin, Read.bind_eq_ok, Read.offset_eq_ok, Read.byte_eq_ok]
  refine ⟨_, _, ⟨rfl, rfl⟩, ?_⟩
  cases inner with
  | bool => exact ⟨0x01, _, ⟨hPrefix, rfl⟩, rfl⟩
  | address => exact ⟨0x05, _, ⟨hPrefix, rfl⟩, rfl⟩
  | integer width =>
      rw [token, SignatureToken.allowedIn_integer] at hAllowed
      refine ⟨width.tag, _, ⟨hPrefix, rfl⟩, ?_⟩
      rw [readTagged_width, if_pos hAllowed]
      rfl
  | vector item =>
      rw [token, SignatureToken.allowedIn_vector] at hAllowed
      rw [write, Cursor.cons_prefix_rest_iff] at hPrefix
      refine ⟨0x0A, _, ⟨hPrefix.1, rfl⟩, hVector ⟨item, rfl, ?_, hAllowed, hPrefix.2, ?_⟩⟩
      · exact Nat.le_of_succ_le_succ hDepth
      · simp [write, Nat.add_comm]

/-- A type is read with the vectors around it that have been read before. -/
theorem readWithin_eq_ok :
    readWithin version levels outer cursor = .ok type next ↔
      ReadFrom version levels outer cursor next type := by
  induction levels generalizing outer cursor next type with
  | zero =>
      simp only [readWithin, Read.bind_eq_ok, Read.throw_eq_ok, and_false, exists_false, false_iff]
      intro h
      obtain ⟨inner, _, hDepth, _⟩ := h
      exact absurd hDepth (Nat.not_le_of_lt inner.token.depth_pos)
  | succ levels ih => exact ⟨readWithin_succ_sound ih.mp, readWithin_succ_complete ih.mpr⟩

end

/-- A type is read from its own bytes and from no others. -/
theorem read_eq_ok {version : UInt32} {cursor next : Cursor} {type : ConstantType} :
    codec.read version cursor = .ok type next ↔
      type.Readable version ∧ type.write <+: cursor.rest ∧
        next = cursor.advance type.write.length := by
  refine readWithin_eq_ok.trans ?_
  simp [ReadFrom, wrap, Readable, SignatureToken.Readable, and_assoc]

theorem exact_codec : codec.Exact fun version type => type.Readable version :=
  fun _ => .of_eq_ok read_eq_ok

end MoveModule.ConstantType
