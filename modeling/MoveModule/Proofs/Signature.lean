import MoveModule.Signature
import MoveModule.Proofs.Binary.Exact

/-! Which types of signatures can be read. A type is refused if it is nested too deep or
names a width of integers that the version does not have. All other types are read back
from the bytes that are written for them. -/
namespace MoveModule

open Binary

namespace Width

theorem ofTag?_tag (width : Width) : ofTag? width.tag = some width := by
  cases width <;> rfl

/-- A byte stands for one width at most, so the width that was found for it is written as this
byte. -/
theorem tag_of_ofTag? {byte : UInt8} {width : Width} (h : ofTag? byte = some width) :
    width.tag = byte := by
  simpa using List.find?_some h

theorem exact_codec (width : Width) : width.codec.Exact fun _ _ => True :=
  Codec.exact_word width.byteCount

/-- Integers of a width all take its number of bytes, however small they are. -/
theorem length_codec_write (width : Width) (value : width.Value) :
    (width.codec.write value).length = width.byteCount :=
  LittleEndian.length_encode _ _

end Width

/-- An index is a number of sixteen bits, for every table the same, and there is a form for each. -/
theorem Index.exact_codec {pool : Pool} : (@Index.codec pool).Exact fun _ _ => True :=
  Codec.exact_index.map (fun _ => rfl) fun _ _ _ => rfl

/-- An index takes three bytes at most, so nothing has to be said of its size. -/
theorem Index.read_eq_ok {pool : Pool} {index : Index pool} {version : UInt32}
    {cursor next : Cursor} :
    Index.codec.read version cursor = .ok index next ↔
      Index.codec.write index <+: cursor.rest ∧
        next = cursor.advance (Index.codec.write index).length := by
  obtain ⟨value⟩ := index
  simp only [Index.codec, Codec.map, Codec.index, Read.bind_eq_ok, Read.pure_eq_ok,
    Read.index_eq_ok, Index.mk.injEq]
  constructor
  · intro h
    obtain ⟨_, _, hRead, rfl, rfl⟩ := h
    exact hRead
  · intro hRead
    exact ⟨value, next, hRead, rfl, rfl⟩

theorem Index.write_ne_nil {pool : Pool} (index : Index pool) : Index.codec.write index ≠ [] :=
  List.ne_nil_of_length_pos (Uleb128.length_encode_pos _)

namespace SignatureToken

/-- The version has all widths of integers that the type names. -/
def AllowedIn (token : SignatureToken) (version : UInt32) : Prop :=
  ∀ width, integer width ∈ token.nodes → width.allowedIn version = true

/-- A reader for the version takes the type. -/
def Readable (token : SignatureToken) (version : UInt32) : Prop :=
  token.depth ≤ maxTokenDepth ∧ token.AllowedIn version

theorem writeAll_eq (tokens : List SignatureToken) : writeAll tokens = tokens.flatMap write := by
  induction tokens with
  | nil => rfl
  | cons token rest ih => rw [writeAll, ih, List.flatMap_cons]

theorem nodesAll_eq (tokens : List SignatureToken) : nodesAll tokens = tokens.flatMap nodes := by
  induction tokens with
  | nil => rfl
  | cons token rest ih => rw [nodesAll, ih, List.flatMap_cons]

/-- The nodes of a token are the token itself and those of its parts, in the order of the parts. -/
theorem nodes_eq (token : SignatureToken) :
    token.nodes = token :: token.children.flatMap nodes := by
  cases token <;> simp [nodes, children, nodesAll_eq]

/-- The visited tokens come first, and then all tokens in those that wait. -/
theorem visit_eq (waiting visited : List SignatureToken) :
    visit waiting visited = visited.reverse ++ waiting.flatMap nodes := by
  induction waiting, visited using visit.induct with
  | case1 visited => simp [visit]
  | case2 visited token rest ih =>
      rw [visit, ih, List.flatMap_append, List.flatMap_cons, nodes_eq]
      simp

/-- The tokens are found in the order in which they are nested. -/
theorem preorder_eq (token : SignatureToken) : token.preorder = token.nodes := by
  rw [preorder, visit_eq]
  simp

/-- A list of tokens is within a depth if each of them is. -/
theorem depthAll_le_iff {tokens : List SignatureToken} {levels : Nat} :
    depthAll tokens ≤ levels ↔ ∀ token ∈ tokens, token.depth ≤ levels := by
  induction tokens with
  | nil => simp [depthAll]
  | cons token rest ih => rw [depthAll, Nat.max_le, ih, List.forall_mem_cons]

/-- Even a token without parts takes a level, so with no level left nothing is read. -/
theorem depth_pos (token : SignatureToken) : 0 < token.depth := by
  cases token <;> simp [depth]

/-- Every token takes a byte at least, so a list of tokens has no more of them than bytes. -/
theorem write_ne_nil (token : SignatureToken) : token.write ≠ [] := by
  cases token <;> simp [write]

section

variable {version : UInt32}

theorem allowedIn_bool : bool.AllowedIn version := by
  simp [AllowedIn, nodes]

theorem allowedIn_address : address.AllowedIn version := by
  simp [AllowedIn, nodes]

/-- Only integers depend on the version: three widths came with version 6. -/
@[simp]
theorem allowedIn_integer {width : Width} :
    (integer width).AllowedIn version ↔ width.allowedIn version = true := by
  simp [AllowedIn, nodes]

@[simp]
theorem allowedIn_vector {item : SignatureToken} :
    (vector item).AllowedIn version ↔ item.AllowedIn version := by
  simp [AllowedIn, nodes]

@[simp]
theorem allowedIn_reference {target : SignatureToken} :
    (reference target).AllowedIn version ↔ target.AllowedIn version := by
  simp [AllowedIn, nodes]

@[simp]
theorem allowedIn_mutableReference {target : SignatureToken} :
    (mutableReference target).AllowedIn version ↔ target.AllowedIn version := by
  simp [AllowedIn, nodes]

/-- The version has a generic struct if it has all its arguments. The struct itself is in every
version. -/
@[simp]
theorem allowedIn_instantiation {handle : Index .structHandles}
    {arguments : List SignatureToken} :
    (instantiation handle arguments).AllowedIn version ↔
      ∀ token ∈ arguments, token.AllowedIn version := by
  simp only [AllowedIn, nodes, nodesAll_eq, List.mem_cons, List.mem_flatMap, reduceCtorEq, false_or]
  constructor
  · intro h token hToken width hWidth
    exact h width ⟨token, hToken, hWidth⟩
  · intro h width hArgument
    rcases hArgument with ⟨token, hToken, hWidth⟩
    exact h token hToken width hWidth

end

section Tags

/-- The first bytes of the tokens that are no integers. -/
def tags : List UInt8 :=
  [0x01, 0x05, 0x06, 0x07, 0x08, 0x09, 0x0A, 0x0B, 0x0C]

/-- To show something of every first byte it is shown for the token that each of these bytes
announces and for all other bytes, which are left to the integers. -/
theorem tag_cases {motive : UInt8 → Prop} (bool : motive 0x01) (address : motive 0x05)
    (reference : motive 0x06) (mutableReference : motive 0x07) (struct : motive 0x08)
    (typeParameter : motive 0x09) (vector : motive 0x0A) (instantiation : motive 0x0B)
    (signer : motive 0x0C) (other : ∀ tag, tag ∉ tags → motive tag) (tag : UInt8) :
    motive tag := by
  by_cases hTag : tag ∈ tags
  · simp only [tags, List.mem_cons, List.not_mem_nil, or_false] at hTag
    rcases hTag with rfl | rfl | rfl | rfl | rfl | rfl | rfl | rfl | rfl
    all_goals assumption
  · exact other tag hTag

/-- Behind any other byte there is an integer of the width that the byte stands for, as long as
the version has it. -/
theorem readTagged_other {version : UInt32} {inner : Read SignatureToken} {start : Nat}
    {tag : UInt8} (hOther : tag ∉ tags) :
    readTagged version inner start tag =
      match Width.ofTag? tag with
      | some width =>
          if width.allowedIn version = true then pure (integer width)
          else throw (.unsupportedInVersion "u16/u32/u256 type" version start)
      | none => throw (.invalidSignatureToken tag start) := by
  have hNot {byte : UInt8} (hByte : byte ∈ tags) : tag ≠ byte := fun h => hOther (h ▸ hByte)
  rw [readTagged]
  all_goals first
    | rfl
    | exact hNot (by decide)

/-- No width shares its byte with another token, so that its byte is read as the width. -/
theorem readTagged_width (version : UInt32) (inner : Read SignatureToken) (start : Nat)
    (width : Width) :
    readTagged version inner start width.tag =
      if width.allowedIn version = true then pure (integer width)
      else throw (.unsupportedInVersion "u16/u32/u256 type" version start) := by
  have hOther : width.tag ∉ tags := by cases width <;> decide
  rw [readTagged_other hOther, Width.ofTag?_tag]

end Tags

section

variable {version : UInt32} {levels : Nat}

/-- The bytes of a generic struct behind its first one. -/
theorem exact_arguments
    (hInner : (readWithin version levels).Exact write
      fun token => token.depth ≤ levels ∧ token.AllowedIn version) :
    Read.Exact
      (Index.codec.read version >>= fun handle =>
        (Read.count >>= fun count => Read.times count (readWithin version levels)) >>=
          fun arguments => pure (handle, arguments))
      (fun parts => Index.codec.write parts.1 ++
        (Uleb128.encode parts.2.length ++ parts.2.flatMap write))
      fun parts : Index .structHandles × List SignatureToken =>
        ∀ token ∈ parts.2, token.depth ≤ levels ∧ token.AllowedIn version := by
  have hArguments (handle : Index .structHandles) := (hInner.counted write_ne_nil).map
    (fun arguments => (handle, arguments)) Prod.snd fun _ _ => rfl
  refine ((Index.exact_codec version).bind Prod.fst hArguments ?_).congr ?_
  · intro handle parts h
    obtain ⟨_, hParts⟩ := h
    rw [← hParts]
  · simp

/-- Behind its first byte a generic struct is a handle and a counted list. -/
theorem write_instantiation (handle : Index .structHandles) (arguments : List SignatureToken) :
    write (instantiation handle arguments) = 0x0B :: (Index.codec.write handle ++
      (Uleb128.encode arguments.length ++ arguments.flatMap write)) := by
  rw [write, writeAll_eq, List.append_assoc]

/-- What is read is a type whose parts have been read with a level less. -/
theorem readWithin_succ_sound
    (hInner : (readWithin version levels).Exact write
      fun token => token.depth ≤ levels ∧ token.AllowedIn version)
    {cursor next : Cursor} {token : SignatureToken}
    (h : readWithin version (levels + 1) cursor = .ok token next) :
    (token.depth ≤ levels + 1 ∧ token.AllowedIn version) ∧ token.write <+: cursor.rest ∧
      next = cursor.advance token.write.length := by
  have hShallow : 1 ≤ levels + 1 := Nat.le_add_left 1 levels
  simp only [readWithin, Read.bind_eq_ok, Read.offset_eq_ok, Read.byte_eq_ok] at h
  obtain ⟨_, _, ⟨rfl, rfl⟩, tag, _, ⟨hByte, rfl⟩, hRead⟩ := h
  cases tag using tag_cases with
  | bool | address | signer =>
      obtain ⟨rfl, rfl⟩ := Read.pure_eq_ok.mp hRead
      exact ⟨⟨hShallow, by simp [AllowedIn, nodes]⟩, hByte, rfl⟩
  | reference =>
      obtain ⟨target, _, hTarget, hToken⟩ := Read.bind_eq_ok.mp hRead
      obtain ⟨rfl, rfl⟩ := Read.pure_eq_ok.mp hToken
      obtain ⟨⟨hDepth, hAllowed⟩, hWritten⟩ := hInner.sound_after hByte hTarget
      exact ⟨⟨Nat.succ_le_succ hDepth, allowedIn_reference.mpr hAllowed⟩, hWritten⟩
  | mutableReference =>
      obtain ⟨target, _, hTarget, hToken⟩ := Read.bind_eq_ok.mp hRead
      obtain ⟨rfl, rfl⟩ := Read.pure_eq_ok.mp hToken
      obtain ⟨⟨hDepth, hAllowed⟩, hWritten⟩ := hInner.sound_after hByte hTarget
      exact ⟨⟨Nat.succ_le_succ hDepth, allowedIn_mutableReference.mpr hAllowed⟩, hWritten⟩
  | vector =>
      obtain ⟨item, _, hItem, hToken⟩ := Read.bind_eq_ok.mp hRead
      obtain ⟨rfl, rfl⟩ := Read.pure_eq_ok.mp hToken
      obtain ⟨⟨hDepth, hAllowed⟩, hWritten⟩ := hInner.sound_after hByte hItem
      exact ⟨⟨Nat.succ_le_succ hDepth, allowedIn_vector.mpr hAllowed⟩, hWritten⟩
  | struct | typeParameter =>
      obtain ⟨index, _, hIndex, hToken⟩ := Read.bind_eq_ok.mp hRead
      obtain ⟨rfl, rfl⟩ := Read.pure_eq_ok.mp hToken
      obtain ⟨_, hWritten⟩ := (Index.exact_codec version).sound_after hByte hIndex
      exact ⟨⟨hShallow, by simp [AllowedIn, nodes]⟩, hWritten⟩
  | instantiation =>
      obtain ⟨handle, _, hHandle, hRest⟩ := Read.bind_eq_ok.mp hRead
      obtain ⟨count, _, hCount, hTokens⟩ := Read.bind_eq_ok.mp hRest
      obtain ⟨arguments, _, hTimes, hToken⟩ := Read.bind_eq_ok.mp hTokens
      obtain ⟨rfl, rfl⟩ := Read.pure_eq_ok.mp hToken
      have hArguments :
          (Read.count >>= fun count => Read.times count (readWithin version levels)) _ =
            .ok arguments _ := Read.bind_eq_ok.mpr ⟨count, _, hCount, hTimes⟩
      obtain ⟨hAll, hWritten⟩ := (exact_arguments hInner).sound_after hByte
        (Read.bind_eq_ok.mpr
          ⟨handle, _, hHandle, Read.bind_eq_ok.mpr ⟨arguments, _, hArguments, rfl⟩⟩)
      rw [write_instantiation, allowedIn_instantiation, depth, Nat.add_le_add_iff_right,
        depthAll_le_iff]
      exact ⟨⟨fun token h => (hAll token h).1, fun token h => (hAll token h).2⟩, hWritten⟩
  | other tag hOther =>
      rw [readTagged_other hOther] at hRead
      cases hWidth : Width.ofTag? tag with
      | none => simp [hWidth] at hRead
      | some width =>
          obtain rfl := Width.tag_of_ofTag? hWidth
          simp only [hWidth, Read.ite_eq_ok, Read.pure_eq_ok, Read.throw_eq_ok, and_false,
            or_false] at hRead
          obtain ⟨hAllowed, rfl, rfl⟩ := hRead
          exact ⟨⟨hShallow, allowedIn_integer.mpr hAllowed⟩, hByte, rfl⟩

/-- The bytes of a token are read with one level more than its parts need. There is one case for
each kind of token, in which the parts are read by the reader with a level less. -/
theorem readWithin_succ_complete
    (hInner : (readWithin version levels).Exact write
      fun token => token.depth ≤ levels ∧ token.AllowedIn version)
    {cursor : Cursor} {token : SignatureToken} (hDepth : token.depth ≤ levels + 1)
    (hAllowed : token.AllowedIn version) (hSize : token.write.length < UInt64.size)
    (hPrefix : token.write <+: cursor.rest) :
    readWithin version (levels + 1) cursor = .ok token (cursor.advance token.write.length) := by
  simp only [readWithin, Read.bind_eq_ok, Read.offset_eq_ok, Read.byte_eq_ok]
  refine ⟨_, _, ⟨rfl, rfl⟩, ?_⟩
  cases token with
  | bool => exact ⟨0x01, _, ⟨hPrefix, rfl⟩, rfl⟩
  | address => exact ⟨0x05, _, ⟨hPrefix, rfl⟩, rfl⟩
  | signer => exact ⟨0x0C, _, ⟨hPrefix, rfl⟩, rfl⟩
  | integer width =>
      rw [allowedIn_integer] at hAllowed
      refine ⟨width.tag, _, ⟨hPrefix, rfl⟩, ?_⟩
      rw [readTagged_width, if_pos hAllowed]
      rfl
  | reference target =>
      rw [allowedIn_reference] at hAllowed
      obtain ⟨hByte, hTarget⟩ :=
        hInner.complete_after target ⟨Nat.le_of_succ_le_succ hDepth, hAllowed⟩ hSize hPrefix
      exact ⟨0x06, _, ⟨hByte, rfl⟩, Read.bind_eq_ok.mpr ⟨_, _, hTarget, rfl⟩⟩
  | mutableReference target =>
      rw [allowedIn_mutableReference] at hAllowed
      obtain ⟨hByte, hTarget⟩ :=
        hInner.complete_after target ⟨Nat.le_of_succ_le_succ hDepth, hAllowed⟩ hSize hPrefix
      exact ⟨0x07, _, ⟨hByte, rfl⟩, Read.bind_eq_ok.mpr ⟨_, _, hTarget, rfl⟩⟩
  | vector item =>
      rw [allowedIn_vector] at hAllowed
      obtain ⟨hByte, hItem⟩ :=
        hInner.complete_after item ⟨Nat.le_of_succ_le_succ hDepth, hAllowed⟩ hSize hPrefix
      exact ⟨0x0A, _, ⟨hByte, rfl⟩, Read.bind_eq_ok.mpr ⟨_, _, hItem, rfl⟩⟩
  | struct handle =>
      obtain ⟨hByte, hHandle⟩ :=
        (Index.exact_codec version).complete_after handle trivial hSize hPrefix
      exact ⟨0x08, _, ⟨hByte, rfl⟩, Read.bind_eq_ok.mpr ⟨_, _, hHandle, rfl⟩⟩
  | typeParameter index =>
      obtain ⟨hByte, hIndex⟩ :=
        (Index.exact_codec version).complete_after index trivial hSize hPrefix
      exact ⟨0x09, _, ⟨hByte, rfl⟩, Read.bind_eq_ok.mpr ⟨_, _, hIndex, rfl⟩⟩
  | instantiation handle arguments =>
      rw [allowedIn_instantiation] at hAllowed
      rw [depth, Nat.add_le_add_iff_right, depthAll_le_iff] at hDepth
      rw [write_instantiation] at hSize hPrefix ⊢
      obtain ⟨hByte, hParts⟩ := (exact_arguments hInner).complete_after (handle, arguments)
        (fun token h => ⟨hDepth token h, hAllowed token h⟩) hSize hPrefix
      simp only [Read.bind_eq_ok, Read.pure_eq_ok] at hParts
      obtain ⟨_, _, hHandle, _, _, ⟨_, _, hCount, hTimes⟩, hValue, rfl⟩ := hParts
      obtain ⟨rfl, rfl⟩ := Prod.mk.inj hValue
      refine ⟨0x0B, _, ⟨hByte, rfl⟩, Read.bind_eq_ok.mpr ⟨_, _, hHandle, ?_⟩⟩
      refine Read.bind_eq_ok.mpr ⟨_, _, hCount, ?_⟩
      exact Read.bind_eq_ok.mpr ⟨_, _, hTimes, rfl⟩

end

/-- A type is read as far as it is nested no deeper than is allowed. -/
theorem exact_readWithin (version : UInt32) (levels : Nat) :
    (readWithin version levels).Exact write
      fun token => token.depth ≤ levels ∧ token.AllowedIn version := by
  induction levels with
  | zero =>
      constructor
      · intro cursor next token h
        simp [readWithin] at h
      · intro cursor token hAdmits
        exact absurd hAdmits.1 (Nat.not_le_of_lt token.depth_pos)
  | succ levels ih =>
      exact ⟨readWithin_succ_sound ih,
        fun hAdmits hSize hPrefix => readWithin_succ_complete ih hAdmits.1 hAdmits.2 hSize hPrefix⟩

/-- A type in a signature can be read if it is no deeper than the limit and the version has all its
integers. -/
theorem exact_codec : codec.Exact fun version token => token.Readable version :=
  fun version => exact_readWithin version maxTokenDepth

end SignatureToken

theorem Signature.exact_codec :
    Signature.codec.Exact fun version signature => ∀ token ∈ signature, token.Readable version :=
  SignatureToken.exact_codec.list SignatureToken.write_ne_nil

end MoveModule
