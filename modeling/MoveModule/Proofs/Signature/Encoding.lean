import MoveModule.Proofs.Binary.Gated
import MoveModule.Proofs.Signature

/-! What a reader makes of the bytes of a type. They are taken for the type again, whatever stands
behind them, unless the type is nested too deep or names a width that the version does not have.
Nothing else about a type is ever refused. -/
namespace MoveModule.SignatureToken

open Binary

/-- The type names a width of integers that came with version 6. -/
def UsesNewWidth (token : SignatureToken) : Prop :=
  ∃ width, integer width ∈ token.nodes ∧ width.isNew = true

/-- The arguments of every struct can be counted in 64 bits. The arguments that are held in memory
always can. -/
def Countable (token : SignatureToken) : Prop :=
  ∀ handle arguments, instantiation handle arguments ∈ token.nodes →
    arguments.length < UInt64.size

/-- From version 6 on every width may be used, and before it all but the new ones. -/
theorem allowedIn_iff {token : SignatureToken} {version : UInt32} :
    token.AllowedIn version ↔ 6 ≤ version ∨ ¬ token.UsesNewWidth := by
  have hWidth (width : Width) :
      width.allowedIn version = true ↔ 6 ≤ version ∨ width.isNew = false := by
    simp [Width.allowedIn, or_comm]
  simp only [AllowedIn, UsesNewWidth, hWidth, not_exists, not_and, Bool.not_eq_true]
  by_cases hVersion : 6 ≤ version <;> simp [hVersion]

/-- A type can be counted if its own arguments can and what stands directly in it can. -/
theorem countable_iff {token : SignatureToken} :
    token.Countable ↔
      (∀ handle arguments, token = instantiation handle arguments →
        arguments.length < UInt64.size) ∧
      ∀ child ∈ token.children, child.Countable := by
  simp only [Countable, nodes_eq token, List.mem_cons, List.mem_flatMap]
  constructor
  · intro h
    exact ⟨fun handle arguments hToken => h handle arguments (.inl hToken.symm),
      fun child hChild handle arguments hNode => h handle arguments (.inr ⟨child, hChild, hNode⟩)⟩
  · intro h handle arguments hNode
    obtain ⟨hOwn, hChildren⟩ := h
    rcases hNode with hToken | ⟨child, hChild, hNode⟩
    · exact hOwn handle arguments hToken.symm
    · exact hChildren child hChild handle arguments hNode

section

variable {α β : Type} {version : UInt32}

/-- What has come of reading a value, of which it is known whether it is shallow enough and whether
the version has all of it. It has been taken, or it has been refused for one of these two reasons,
and then the reason holds. -/
inductive Verdict (version : UInt32) (result : EStateM.Result DecodeError Cursor α) (value : α)
    (next : Cursor) (shallow allowed : Prop) : Prop
  | taken (hShallow : shallow) (hAllowed : allowed) (h : result = .ok value next)
  | tooDeep (hDeep : ¬ shallow) (place : Nat) (stop : Cursor)
      (h : result = .error (.signatureTooDeep maxTokenDepth place) stop)
  | tooNew (hNew : ¬ allowed) (place : Nat) (stop : Cursor)
      (h : result = .error (.unsupportedInVersion "u16/u32/u256 type" version place) stop)

namespace Verdict

variable {result : EStateM.Result DecodeError Cursor α} {value : α} {cursor middle next : Cursor}
  {shallow allowed : Prop}

theorem of_eq_ok (h : result = .ok value next) : Verdict version result value next True True :=
  .taken trivial trivial h

/-- What decides about a verdict may be said in other words. -/
theorem congr {shallow' allowed' : Prop} (h : Verdict version result value next shallow allowed)
    (hShallow : shallow ↔ shallow') (hAllowed : allowed ↔ allowed') :
    Verdict version result value next shallow' allowed' := by
  rwa [← propext hShallow, ← propext hAllowed]

/-- The first part that is refused decides. -/
theorem bind {first : Read α} {second : α → Read β} {found : β} {shallowRest allowedRest : Prop}
    (hFirst : Verdict version (first cursor) value middle shallow allowed)
    (hSecond : Verdict version (second value middle) found next shallowRest allowedRest) :
    Verdict version ((first >>= second) cursor) found next (shallow ∧ shallowRest)
      (allowed ∧ allowedRest) := by
  cases hFirst with
  | taken hShallow hAllowed hFirst =>
      rw [Read.bind_of_eq_ok hFirst]
      exact hSecond.congr (iff_and_self.mpr fun _ => hShallow) (iff_and_self.mpr fun _ => hAllowed)
  | tooDeep hDeep place stop hFirst =>
      exact .tooDeep (fun h => hDeep h.1) place stop (Read.bind_of_eq_error hFirst)
  | tooNew hNew place stop hFirst =>
      exact .tooNew (fun h => hNew h.1) place stop (Read.bind_of_eq_error hFirst)

/-- The value in another guise. -/
theorem map {read : Read α} (h : Verdict version (read cursor) value next shallow allowed)
    (into : α → β) :
    Verdict version ((read >>= fun value => pure (into value)) cursor) (into value) next shallow
      allowed := by
  have hPure : Verdict version ((pure (into value) : Read β) next) (into value) next True True :=
    of_eq_ok rfl
  exact (h.bind hPure).congr (and_iff_left trivial) (and_iff_left trivial)

/-- Items one after the other, each of which is judged wherever its bytes stand. -/
theorem timesOnto {read : Read α} {write : α → List UInt8} {shallow allowed : α → Prop}
    {items : List α}
    (hRead : ∀ item ∈ items, ∀ {cursor : Cursor}, write item <+: cursor.rest →
      Verdict version (read cursor) item (cursor.advance (write item).length) (shallow item)
        (allowed item))
    (sofar : List α) {cursor : Cursor} (hPrefix : items.flatMap write <+: cursor.rest) :
    Verdict version (Read.timesOnto read items.length sofar cursor) (sofar.reverse ++ items)
      (cursor.advance (items.flatMap write).length) (∀ item ∈ items, shallow item)
      (∀ item ∈ items, allowed item) := by
  induction items generalizing sofar cursor with
  | nil => exact (of_eq_ok (by simp [Read.timesOnto])).congr (by simp) (by simp)
  | cons item later ih =>
      obtain ⟨hItem, hLater⟩ := List.forall_mem_cons.mp hRead
      rw [List.flatMap_cons, append_prefix_iff, ← Cursor.rest_advance] at hPrefix
      have hBehind := ih hLater (item :: sofar) hPrefix.2
      rw [Cursor.advance_advance, ← List.length_append, ← List.flatMap_cons, List.reverse_cons,
        List.append_assoc, List.singleton_append] at hBehind
      rw [List.length_cons, Read.timesOnto_succ]
      exact ((hItem hPrefix.1).bind hBehind).congr List.forall_mem_cons.symm
        List.forall_mem_cons.symm

/-- What is read when the first byte is known. -/
theorem afterByte {body : Nat → UInt8 → Read α} {byte : UInt8} (hByte : [byte] <+: cursor.rest)
    (h : Verdict version (body cursor.offset byte (cursor.advance 1)) value next shallow allowed) :
    Verdict version ((Read.offset >>= fun start => Read.byte >>= body start) cursor) value next
      shallow allowed := by
  rwa [Read.bind_of_eq_ok (Read.offset_eq_ok.mpr ⟨rfl, rfl⟩),
    Read.bind_of_eq_ok (Read.byte_eq_ok.mpr ⟨hByte, rfl⟩)]

end Verdict

end

section

variable {version : UInt32} {levels : Nat} {cursor : Cursor}

/-- An integer has no parts, so a level is enough for it. Its width decides. -/
theorem verdict_integer {width : Width} (hByte : [width.tag] <+: cursor.rest) :
    Verdict version (readWithin version (levels + 1) cursor) (integer width) (cursor.advance 1)
      True (width.allowedIn version = true) := by
  rw [readWithin]
  refine .afterByte hByte ?_
  rw [readTagged_width]
  by_cases hAllowed : width.allowedIn version = true
  · rw [if_pos hAllowed]
    exact .taken trivial hAllowed rfl
  · rw [if_neg hAllowed]
    exact .tooNew hAllowed cursor.offset (cursor.advance 1) rfl

/-- An index is neither too deep nor too new. -/
theorem verdict_index {pool : Pool} {index : Index pool}
    (hPrefix : Index.codec.write index <+: cursor.rest) :
    Verdict version (Index.codec.read version cursor) index
      (cursor.advance (Index.codec.write index).length) True True :=
  .of_eq_ok (Index.read_eq_ok.mpr ⟨hPrefix, rfl⟩)

/-- A type that is held in another one, behind a byte that says how. -/
theorem verdict_inner {inner : SignatureToken}
    (hInner : ∀ {cursor : Cursor}, inner.write <+: cursor.rest →
      Verdict version (readWithin version levels cursor) inner
        (cursor.advance inner.write.length) (inner.depth ≤ levels) (inner.AllowedIn version))
    (into : SignatureToken → SignatureToken)
    (hBehind : inner.write <+: (cursor.advance 1).rest) :
    Verdict version
      ((readWithin version levels >>= fun found => pure (into found)) (cursor.advance 1))
      (into inner) (cursor.advance (inner.write.length + 1)) (inner.depth ≤ levels)
      (inner.AllowedIn version) := by
  rw [Nat.add_comm, ← Cursor.advance_advance]
  exact (hInner hBehind).map into

/-- The bytes of a generic struct behind its first one. -/
theorem verdict_arguments {handle : Index .structHandles} {arguments : List SignatureToken}
    (hArguments : ∀ token ∈ arguments, ∀ {cursor : Cursor}, token.write <+: cursor.rest →
      Verdict version (readWithin version levels cursor) token
        (cursor.advance token.write.length) (token.depth ≤ levels) (token.AllowedIn version))
    (hCount : arguments.length < UInt64.size)
    (hPrefix : Index.codec.write handle ++
      (Uleb128.encode arguments.length ++ arguments.flatMap write) <+: cursor.rest) :
    Verdict version
      ((Index.codec.read version >>= fun handle => Read.count >>= fun count =>
        Read.times count (readWithin version levels) >>= fun arguments =>
          pure (instantiation handle arguments)) cursor)
      (instantiation handle arguments)
      (cursor.advance (Index.codec.write handle ++
        (Uleb128.encode arguments.length ++ arguments.flatMap write)).length)
      (∀ token ∈ arguments, token.depth ≤ levels)
      (∀ token ∈ arguments, token.AllowedIn version) := by
  obtain ⟨hHandle, hBehind⟩ := append_prefix_iff.mp hPrefix
  rw [← Cursor.rest_advance] at hBehind
  have hRead := Read.count_complete write_ne_nil hCount hBehind
  rw [append_prefix_iff, ← Cursor.rest_advance] at hBehind
  have hAll := (Verdict.timesOnto hArguments [] hBehind.2).map (instantiation handle)
  rw [Read.bind_of_eq_ok (Index.read_eq_ok.mpr ⟨hHandle, rfl⟩), Read.bind_of_eq_ok hRead,
    List.length_append, List.length_append, ← Cursor.advance_advance, ← Cursor.advance_advance]
  exact hAll

/-- The bytes of a type are taken for it, or the type is nested too deep, or it has something that
the version does not have. -/
theorem verdict_readWithin {token : SignatureToken} (hCountable : token.Countable)
    (hPrefix : token.write <+: cursor.rest) :
    Verdict version (readWithin version levels cursor) token
      (cursor.advance token.write.length) (token.depth ≤ levels) (token.AllowedIn version) := by
  induction levels generalizing token cursor with
  | zero =>
      have hLimit : ¬ token.depth ≤ 0 := Nat.not_le_of_lt token.depth_pos
      exact .tooDeep hLimit cursor.offset cursor (by rw [readWithin]; rfl)
  | succ levels ih =>
      have hShallow : True ↔ 1 ≤ levels + 1 := iff_of_true trivial (Nat.le_add_left 1 levels)
      obtain ⟨hArguments, hChildren⟩ := countable_iff.mp hCountable
      have hInner (child : SignatureToken) (hChild : child ∈ token.children) {cursor : Cursor} :=
        @ih cursor child (hChildren child hChild)
      cases token with
      | integer width =>
          exact (verdict_integer hPrefix).congr hShallow allowedIn_integer.symm
      | bool | address | signer =>
          rw [readWithin]
          refine .afterByte hPrefix ((Verdict.of_eq_ok rfl).congr hShallow ?_)
          simp [AllowedIn, nodes]
      | struct handle | typeParameter index =>
          obtain ⟨hByte, hIndex⟩ := Cursor.cons_prefix_rest_iff.mp hPrefix
          have hVerdict : Verdict version _ _ _ _ _ := verdict_index hIndex
          rw [Cursor.advance_advance, Nat.add_comm] at hVerdict
          rw [readWithin]
          refine .afterByte hByte ((hVerdict.map _).congr hShallow ?_)
          simp [AllowedIn, nodes]
      | reference target =>
          obtain ⟨hByte, hTarget⟩ := Cursor.cons_prefix_rest_iff.mp hPrefix
          have hVerdict := verdict_inner (hInner target List.mem_cons_self) reference hTarget
          rw [readWithin]
          exact .afterByte hByte (hVerdict.congr Nat.succ_le_succ_iff.symm allowedIn_reference.symm)
      | mutableReference target =>
          obtain ⟨hByte, hTarget⟩ := Cursor.cons_prefix_rest_iff.mp hPrefix
          have hVerdict := verdict_inner (hInner target List.mem_cons_self) mutableReference hTarget
          rw [readWithin]
          exact .afterByte hByte
            (hVerdict.congr Nat.succ_le_succ_iff.symm allowedIn_mutableReference.symm)
      | vector item =>
          obtain ⟨hByte, hItem⟩ := Cursor.cons_prefix_rest_iff.mp hPrefix
          have hVerdict := verdict_inner (hInner item List.mem_cons_self) vector hItem
          rw [readWithin]
          exact .afterByte hByte (hVerdict.congr Nat.succ_le_succ_iff.symm allowedIn_vector.symm)
      | instantiation handle arguments =>
          have hDepth : (∀ token ∈ arguments, token.depth ≤ levels) ↔
              (instantiation handle arguments).depth ≤ levels + 1 := by
            rw [depth, Nat.add_le_add_iff_right, depthAll_le_iff]
          rw [write_instantiation] at hPrefix ⊢
          obtain ⟨hByte, hParts⟩ := Cursor.cons_prefix_rest_iff.mp hPrefix
          have hVerdict := verdict_arguments hInner (hArguments handle arguments rfl) hParts
          rw [Cursor.advance_advance, Nat.add_comm] at hVerdict
          rw [readWithin]
          exact .afterByte hByte (hVerdict.congr hDepth allowedIn_instantiation.symm)

end

/-- A type that can be counted is read from its own bytes and from no others. -/
theorem Countable.read_eq_ok {token : SignatureToken} (hCountable : token.Countable)
    {version : UInt32} {cursor next : Cursor} :
    codec.read version cursor = .ok token next ↔
      token.Readable version ∧ token.write <+: cursor.rest ∧
        next = cursor.advance token.write.length := by
  refine ⟨(exact_codec version).sound, ?_⟩
  intro h
  obtain ⟨hReadable, hPrefix, rfl⟩ := h
  cases verdict_readWithin hCountable hPrefix with
  | taken _ _ hRead => exact hRead
  | tooDeep hDeep => exact absurd hReadable.1 hDeep
  | tooNew hNew => exact absurd hReadable.2 hNew

/-- The bytes of a type are read as this type, up to its last byte, if and only if it is nested no
deeper than 256 tokens and the version has its widths of integers. Otherwise one of the two is
what is said to be wrong, and it is wrong. Whatever is read has been written as it is read. -/
theorem read_written_iff (version : UInt32) :
    (∀ (token : SignatureToken) (behind : List UInt8) (cursor : Cursor), token.Countable →
      cursor.rest = token.write ++ behind →
      (codec.read version cursor = .ok token (cursor.advance token.write.length) ↔
        token.depth ≤ maxTokenDepth ∧ (6 ≤ version ∨ ¬ token.UsesNewWidth)) ∧
      (¬ (token.depth ≤ maxTokenDepth ∧ (6 ≤ version ∨ ¬ token.UsesNewWidth)) →
        (maxTokenDepth < token.depth ∧ ∃ place stop,
          codec.read version cursor = .error (.signatureTooDeep maxTokenDepth place) stop) ∨
        (version < 6 ∧ token.UsesNewWidth ∧ ∃ place stop,
          codec.read version cursor =
            .error (.unsupportedInVersion "u16/u32/u256 type" version place) stop))) ∧
    ∀ (cursor next : Cursor) (token : SignatureToken),
      codec.read version cursor = .ok token next →
        token.write <+: cursor.rest ∧ next = cursor.advance token.write.length := by
  refine ⟨?_, fun cursor next token h => ((exact_codec version).sound h).2⟩
  intro token behind cursor hCountable hRest
  have hPrefix : token.write <+: cursor.rest := ⟨behind, hRest.symm⟩
  have hVerdict : Verdict version (codec.read version cursor) token
      (cursor.advance token.write.length) (token.depth ≤ maxTokenDepth)
      (6 ≤ version ∨ ¬ token.UsesNewWidth) :=
    (verdict_readWithin hCountable hPrefix).congr Iff.rfl allowedIn_iff
  cases hVerdict with
  | taken hShallow hAllowed hRead =>
      exact ⟨iff_of_true hRead ⟨hShallow, hAllowed⟩, fun h => absurd ⟨hShallow, hAllowed⟩ h⟩
  | tooDeep hDeep place stop hRead =>
      refine ⟨iff_of_false (by simp [hRead]) fun h => hDeep h.1, fun _ => .inl ?_⟩
      exact ⟨Nat.lt_of_not_le hDeep, place, stop, hRead⟩
  | tooNew hNew place stop hRead =>
      refine ⟨iff_of_false (by simp [hRead]) fun h => hNew h.2, fun _ => .inr ?_⟩
      rw [not_or, Classical.not_not, UInt32.not_le] at hNew
      exact ⟨hNew.1, hNew.2, place, stop, hRead⟩

/-- A generic struct of a truth value and of integers in `count` vectors. -/
def nestedStruct (count : Nat) : SignatureToken :=
  instantiation ⟨1⟩ [bool, Nat.repeat vector count (integer .w16)]

theorem countable_nestedStruct (count : Nat) : (nestedStruct count).Countable := by
  have hBool : bool.Countable := by simp [Countable, nodes]
  have hVectors : (Nat.repeat vector count (integer .w16)).Countable := by
    induction count with
    | zero => simp [Countable, nodes, Nat.repeat]
    | succ count ih => simpa [Countable, nodes, Nat.repeat] using ih
  refine countable_iff.mpr ⟨?_, ?_⟩
  · intro _ _ hToken
    obtain ⟨rfl, rfl⟩ := instantiation.inj hToken
    exact Nat.lt_of_lt_of_le (Nat.lt_succ_self 2) (by decide)
  · exact List.forall_mem_cons.mpr ⟨hBool, List.forall_mem_singleton.mpr hVectors⟩

theorem depth_nestedStruct (count : Nat) : (nestedStruct count).depth = count + 2 := by
  have hVectors : (Nat.repeat vector count (integer .w16)).depth = count + 1 := by
    induction count with
    | zero => rfl
    | succ count ih => rw [Nat.repeat, depth, ih]
  simp [nestedStruct, depth, depthAll, hVectors]

theorem usesNewWidth_nestedStruct (count : Nat) : (nestedStruct count).UsesNewWidth := by
  have hVectors : integer .w16 ∈ (Nat.repeat vector count (integer .w16)).nodes := by
    induction count with
    | zero => simp [nodes, Nat.repeat]
    | succ count ih => simpa [nodes, Nat.repeat] using ih
  exact ⟨.w16, by simp [nestedStruct, nodes, nodesAll, hVectors], rfl⟩

/-- At the limit the struct is read, and the byte behind it is left alone. Version 5 does not have
it, and with one vector more it is too deep. -/
theorem read_written_iff_nested :
    codec.read 6 (Cursor.ofBytes ((nestedStruct 254).write ++ [0x0A])) =
        .ok (nestedStruct 254)
          ((Cursor.ofBytes ((nestedStruct 254).write ++ [0x0A])).advance
            (nestedStruct 254).write.length) ∧
      (∃ place stop, codec.read 5 (Cursor.ofBytes ((nestedStruct 254).write ++ [])) =
        .error (.unsupportedInVersion "u16/u32/u256 type" 5 place) stop) ∧
      ∃ place stop, codec.read 6 (Cursor.ofBytes ((nestedStruct 255).write ++ [])) =
        .error (.signatureTooDeep 256 place) stop := by
  have hAtLimit : (nestedStruct 254).depth ≤ maxTokenDepth :=
    Nat.le_of_eq (depth_nestedStruct 254)
  have hAboveLimit : ¬ (nestedStruct 255).depth ≤ maxTokenDepth := by
    rw [depth_nestedStruct]
    decide
  obtain ⟨hSix, -⟩ := read_written_iff 6
  obtain ⟨hFive, -⟩ := read_written_iff 5
  obtain ⟨hRead, -⟩ := hSix _ [0x0A] _ (countable_nestedStruct 254) (Cursor.rest_ofBytes _)
  obtain ⟨-, hOld⟩ := hFive _ [] _ (countable_nestedStruct 254) (Cursor.rest_ofBytes _)
  obtain ⟨-, hDeep⟩ := hSix _ [] _ (countable_nestedStruct 255) (Cursor.rest_ofBytes _)
  refine ⟨hRead.mpr ⟨hAtLimit, .inl (by decide)⟩, ?_, ?_⟩
  · have hNew := usesNewWidth_nestedStruct 254
    rcases hOld fun h => h.2.elim (by decide) (absurd hNew) with ⟨hDeep, -⟩ | ⟨-, -, hOld⟩
    · exact absurd hAtLimit (Nat.not_le_of_lt hDeep)
    · exact hOld
  · rcases hDeep fun h => hAboveLimit h.1 with ⟨-, hDeep⟩ | ⟨hOld, -⟩
    · exact hDeep
    · exact absurd hOld (by decide)

end MoveModule.SignatureToken
