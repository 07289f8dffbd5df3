import MoveModule.Proofs.Binary.Read

/-! Exact reads and exact codecs. An exact read accepts one form for each admitted value
and nothing else. What is put together from exact codecs is exact, so that the reader of a
file and its writer have to be compared only where a form is first said. -/
namespace MoveModule.Binary

namespace Read

variable {α β : Type}

/-- The read gives admitted values only, each for the bytes that are written for it, and
stops behind them. In the other direction the bytes of an admitted value are read, unless
there are 2^64 of them, since more items than that cannot be counted. -/
structure Exact (read : Read α) (write : α → List UInt8) (admits : α → Prop) : Prop where
  sound : ∀ {cursor next : Cursor} {value : α}, read cursor = .ok value next →
    admits value ∧ write value <+: cursor.rest ∧ next = cursor.advance (write value).length
  complete : ∀ {cursor : Cursor} {value : α}, admits value →
    (write value).length < UInt64.size → write value <+: cursor.rest →
      read cursor = .ok value (cursor.advance (write value).length)

namespace Exact

variable {read : Read α} {write : α → List UInt8} {admits : α → Prop}

/-- A read that accepts exactly the written forms, of whatever size they are. -/
theorem of_eq_ok (h : ∀ {cursor next : Cursor} {value : α}, read cursor = .ok value next ↔
    admits value ∧ write value <+: cursor.rest ∧ next = cursor.advance (write value).length) :
    read.Exact write admits where
  sound := h.mp
  complete hAdmits _ hPrefix := h.mpr ⟨hAdmits, hPrefix, rfl⟩

/-- Where no form is a matter of counting, a read of admitted bytes succeeds without a
condition on their number. -/
theorem eq_ok_iff (hRead : read.Exact write admits)
    (hSize : ∀ value, (write value).length < UInt64.size) {cursor next : Cursor} {value : α} :
    read cursor = .ok value next ↔
      admits value ∧ write value <+: cursor.rest ∧ next = cursor.advance (write value).length := by
  constructor
  · exact hRead.sound
  · intro h
    obtain ⟨hAdmits, hPrefix, rfl⟩ := h
    exact hRead.complete hAdmits (hSize value) hPrefix

/-- A value in another guise, whose bytes are too few to be a matter of counting. -/
theorem bind_pure_eq_ok (hRead : read.Exact write fun _ => True) (into : α → β)
    (hSize : ∀ value, (write value).length < UInt64.size) {cursor next : Cursor} {result : β} :
    (read >>= fun value => pure (into value)) cursor = .ok result next ↔
      ∃ value, into value = result ∧ write value <+: cursor.rest ∧
        next = cursor.advance (write value).length := by
  simp only [bind_eq_ok, pure_eq_ok]
  constructor
  · intro h
    obtain ⟨value, _, hValue, rfl, rfl⟩ := h
    exact ⟨value, rfl, (hRead.sound hValue).2⟩
  · intro h
    obtain ⟨value, rfl, hPrefix, rfl⟩ := h
    exact ⟨value, _, hRead.complete trivial (hSize value) hPrefix, rfl, rfl⟩

/-- What is read behind a byte that has been read before. -/
theorem sound_after (hRead : read.Exact write admits) {byte : UInt8} {cursor next : Cursor}
    {value : α} (hByte : [byte] <+: cursor.rest) (h : read (cursor.advance 1) = .ok value next) :
    admits value ∧ byte :: write value <+: cursor.rest ∧
      next = cursor.advance (byte :: write value).length := by
  obtain ⟨hAdmits, hPrefix, rfl⟩ := hRead.sound h
  exact ⟨hAdmits, Cursor.cons_prefix_rest_iff.mpr ⟨hByte, hPrefix⟩, by simp [Nat.add_comm]⟩

/-- The bytes of a value with a byte in front are read as both, one after the other. -/
theorem complete_after (hRead : read.Exact write admits) {byte : UInt8} {cursor : Cursor}
    (value : α) (hAdmits : admits value) (hSize : (byte :: write value).length < UInt64.size)
    (hPrefix : byte :: write value <+: cursor.rest) :
    [byte] <+: cursor.rest ∧
      read (cursor.advance 1) = .ok value (cursor.advance (byte :: write value).length) := by
  obtain ⟨hByte, hBehind⟩ := Cursor.cons_prefix_rest_iff.mp hPrefix
  have hValue := hRead.complete hAdmits (Nat.lt_of_succ_lt hSize) hBehind
  rw [List.length_cons, Nat.add_comm, ← Cursor.advance_advance]
  exact ⟨hByte, hValue⟩

theorem congr {other : α → Prop} (hRead : read.Exact write admits)
    (h : ∀ value, admits value ↔ other value) : read.Exact write other := by
  have hSame : admits = other := funext fun value => propext (h value)
  rwa [← hSame]

/-- A value in another guise. It has to be possible to go back from each value that
is read. -/
theorem map (hRead : read.Exact write admits) (into : α → β) (back : β → α)
    (hBack : ∀ value, admits value → back (into value) = value) :
    Exact (read >>= fun value => pure (into value)) (fun value => write (back value))
      (fun value => admits (back value) ∧ into (back value) = value) where
  sound := by
    intro cursor next value h
    simp only [bind_eq_ok, pure_eq_ok] at h
    obtain ⟨part, _, hPart, rfl, rfl⟩ := h
    obtain ⟨hAdmits, hWritten⟩ := hRead.sound hPart
    rw [hBack part hAdmits]
    exact ⟨⟨hAdmits, rfl⟩, hWritten⟩
  complete := by
    intro cursor value hValue hSize hPrefix
    rcases hValue with ⟨hAdmits, hInto⟩
    simp only [bind_eq_ok, pure_eq_ok]
    exact ⟨_, _, hRead.complete hAdmits hSize hPrefix, hInto, rfl⟩

/-- Two reads, the second of which may depend on what the first one gives. The first
value has to be a part of the result. -/
theorem bind {second : α → Read β} {writeSecond : α → β → List UInt8}
    {admitsSecond : α → β → Prop} (part : β → α) (hRead : read.Exact write admits)
    (hSecond : ∀ value, (second value).Exact (writeSecond value) (admitsSecond value))
    (hPart : ∀ first value, admitsSecond first value → part value = first) :
    Exact (read >>= second) (fun value => write (part value) ++ writeSecond (part value) value)
      (fun value => admits (part value) ∧ admitsSecond (part value) value) where
  sound := by
    intro cursor next value h
    obtain ⟨first, middle, hFirst, hRest⟩ := bind_eq_ok.mp h
    obtain ⟨hAdmits, hPrefix, rfl⟩ := hRead.sound hFirst
    obtain ⟨hAdmitsSecond, hPrefixSecond, rfl⟩ := (hSecond first).sound hRest
    rw [Cursor.rest_advance] at hPrefixSecond
    rw [hPart first value hAdmitsSecond, append_prefix_iff, List.length_append]
    exact ⟨⟨hAdmits, hAdmitsSecond⟩, ⟨hPrefix, hPrefixSecond⟩, Cursor.advance_advance _ _ _⟩
  complete := by
    intro cursor value hValue hSize hPrefix
    rcases hValue with ⟨hAdmits, hAdmitsSecond⟩
    rw [List.length_append] at hSize
    obtain ⟨hFirst, hRest⟩ := append_prefix_iff.mp hPrefix
    rw [← Cursor.rest_advance] at hRest
    have hPart := hRead.complete hAdmits (by omega) hFirst
    have hBehind := (hSecond _).complete hAdmitsSecond (by omega) hRest
    rw [bind_eq_ok, List.length_append, ← Cursor.advance_advance]
    exact ⟨_, _, hPart, hBehind⟩

end Exact

/-- Items that have been read before stand in front of those that follow, and have no influence on
them. -/
theorem timesOnto_eq_ok {read : Read α} {count : Nat} {sofar items : List α}
    {cursor next : Cursor} :
    timesOnto read count sofar cursor = .ok items next ↔
      ∃ later, items = sofar.reverse ++ later ∧ times count read cursor = .ok later next := by
  induction count generalizing sofar items cursor with
  | zero =>
      simp only [times, timesOnto, EStateM.Result.ok.injEq, List.reverse_nil]
      constructor
      · intro h
        obtain ⟨rfl, rfl⟩ := h
        exact ⟨[], by simp, rfl, rfl⟩
      · intro h
        obtain ⟨_, rfl, rfl, rfl⟩ := h
        simp
  | succ count ih =>
      simp only [times, timesOnto]
      cases read cursor with
      | error error middle => simp
      | ok item middle =>
          simp only [ih]
          constructor
          · intro h
            obtain ⟨later, rfl, hLater⟩ := h
            exact ⟨item :: later, by simp, later, by simp, hLater⟩
          · intro h
            obtain ⟨_, rfl, later, rfl, hLater⟩ := h
            exact ⟨later, by simp, hLater⟩

/-- One item more is an item and then the others. -/
theorem times_succ_eq_ok {read : Read α} {count : Nat} {items : List α} {cursor next : Cursor} :
    times (count + 1) read cursor = .ok items next ↔
      ∃ item middle later, items = item :: later ∧ read cursor = .ok item middle ∧
        times count read middle = .ok later next := by
  change timesOnto read (count + 1) [] cursor = _ ↔ _
  simp only [timesOnto]
  cases read cursor with
  | error error middle => simp
  | ok item middle =>
      simp only [timesOnto_eq_ok, EStateM.Result.ok.injEq]
      constructor
      · intro h
        obtain ⟨later, rfl, hLater⟩ := h
        exact ⟨item, middle, later, rfl, ⟨rfl, rfl⟩, hLater⟩
      · intro h
        obtain ⟨_, _, later, rfl, ⟨rfl, rfl⟩, hLater⟩ := h
        exact ⟨later, rfl, hLater⟩

/-- So many items, one after the other. -/
theorem Exact.times {read : Read α} {write : α → List UInt8} {admits : α → Prop}
    (hRead : read.Exact write admits) (count : Nat) :
    Exact (times count read) (fun items => items.flatMap write)
      (fun items => items.length = count ∧ ∀ item ∈ items, admits item) where
  sound := by
    intro cursor next items h
    induction count generalizing cursor items with
    | zero =>
        obtain ⟨rfl, rfl⟩ : [] = items ∧ cursor = next := by simpa [Read.times, timesOnto] using h
        simp
    | succ count ih =>
        obtain ⟨item, _, later, rfl, hItem, hLater⟩ := times_succ_eq_ok.mp h
        obtain ⟨hAdmits, hPrefix, rfl⟩ := hRead.sound hItem
        obtain ⟨⟨hLength, hAll⟩, hRest, rfl⟩ := ih hLater
        have hItems := List.forall_mem_cons.mpr ⟨hAdmits, hAll⟩
        rw [Cursor.rest_advance] at hRest
        rw [List.flatMap_cons, append_prefix_iff, List.length_cons, hLength, List.length_append]
        exact ⟨⟨rfl, hItems⟩, ⟨hPrefix, hRest⟩, Cursor.advance_advance _ _ _⟩
  complete := by
    intro cursor items hItems hSize hPrefix
    rcases hItems with ⟨rfl, hAll⟩
    induction items generalizing cursor with
    | nil => rfl
    | cons item later ih =>
        rw [List.flatMap_cons, List.length_append] at hSize
        rw [List.flatMap_cons, append_prefix_iff, ← Cursor.rest_advance] at hPrefix
        obtain ⟨hAdmits, hLater⟩ := List.forall_mem_cons.mp hAll
        have hItem := hRead.complete hAdmits (by omega) hPrefix.1
        have hBehind := ih (by omega) hPrefix.2 hLater
        rw [List.length_cons, times_succ_eq_ok, List.flatMap_cons, List.length_append,
          ← Cursor.advance_advance]
        exact ⟨item, _, later, rfl, hItem, hBehind⟩

/-- So many items of which each is read whatever its length is. -/
theorem times_eq_ok {read : Read α} {write : α → List UInt8} {admits : α → Prop}
    (h : ∀ {cursor next : Cursor} {value : α}, read cursor = .ok value next ↔
      admits value ∧ write value <+: cursor.rest ∧ next = cursor.advance (write value).length)
    {count : Nat} {items : List α} {cursor next : Cursor} :
    Read.times count read cursor = .ok items next ↔
      (items.length = count ∧ ∀ item ∈ items, admits item) ∧
        items.flatMap write <+: cursor.rest ∧
        next = cursor.advance (items.flatMap write).length := by
  constructor
  · exact ((Exact.of_eq_ok h).times count).sound
  · intro hItems
    rcases hItems with ⟨⟨rfl, hAll⟩, hPrefix, rfl⟩
    induction items generalizing cursor with
    | nil => rfl
    | cons item later ih =>
        rw [List.flatMap_cons, append_prefix_iff, ← Cursor.rest_advance] at hPrefix
        obtain ⟨hAdmits, hLater⟩ := List.forall_mem_cons.mp hAll
        have hItem := h.mpr ⟨hAdmits, hPrefix.1, rfl⟩
        have hBehind := ih hLater hPrefix.2
        rw [List.length_cons, times_succ_eq_ok, List.flatMap_cons, List.length_append,
          ← Cursor.advance_advance]
        exact ⟨item, _, later, rfl, hItem, hBehind⟩

/-- There are as many bytes as items at least, if every item takes one. -/
theorem length_le_length_flatMap {write : α → List UInt8} (hWrite : ∀ value, write value ≠ [])
    (items : List α) : items.length ≤ (items.flatMap write).length := by
  induction items with
  | nil => simp
  | cons item later ih =>
      have hItem := List.length_pos_iff.mpr (hWrite item)
      rw [List.flatMap_cons, List.length_cons, List.length_append]
      omega

/-- An item takes a byte at least, so a number that is followed by so many items is never
too large for what is left. -/
theorem count_complete {write : α → List UInt8} (hWrite : ∀ value, write value ≠ [])
    {items : List α} {cursor : Cursor} (hCount : items.length < UInt64.size)
    (hPrefix : Uleb128.encode items.length ++ items.flatMap write <+: cursor.rest) :
    count cursor = .ok items.length (cursor.advance (Uleb128.encode items.length).length) := by
  have hRemaining := Cursor.length_le_remaining hPrefix
  have hItems := length_le_length_flatMap hWrite items
  have hLength := Uleb128.length_encode_pos items.length
  rw [List.length_append] at hRemaining
  exact count_eq_ok.mpr ⟨by omega, hCount, (append_prefix_iff.mp hPrefix).1, rfl⟩

/-- Items with their number in front. -/
theorem Exact.counted {read : Read α} {write : α → List UInt8} {admits : α → Prop}
    (hRead : read.Exact write admits) (hWrite : ∀ value, write value ≠ []) :
    Exact (count >>= fun number => Read.times number read)
      (fun items => Uleb128.encode items.length ++ items.flatMap write)
      (fun items => ∀ item ∈ items, admits item) where
  sound := by
    intro cursor next items h
    obtain ⟨number, _, hCount, hItems⟩ := bind_eq_ok.mp h
    obtain ⟨_, _, hPrefix, rfl⟩ := count_eq_ok.mp hCount
    obtain ⟨⟨rfl, hAll⟩, hRest, rfl⟩ := (hRead.times number).sound hItems
    rw [Cursor.rest_advance] at hRest
    rw [append_prefix_iff, List.length_append]
    exact ⟨hAll, ⟨hPrefix, hRest⟩, Cursor.advance_advance _ _ _⟩
  complete := by
    intro cursor items hAll hSize hPrefix
    have hItems := length_le_length_flatMap hWrite items
    rw [List.length_append] at hSize
    have hCount := count_complete hWrite (by omega) hPrefix
    rw [append_prefix_iff, ← Cursor.rest_advance] at hPrefix
    have hBehind := (hRead.times items.length).complete ⟨rfl, hAll⟩ (by omega) hPrefix.2
    rw [bind_eq_ok, List.length_append, ← Cursor.advance_advance]
    exact ⟨_, _, hCount, hBehind⟩

section Every

variable {read : Read α} {write : α → List UInt8} {admits : α → Prop}

/-- Items that take a byte or more each are read until no byte is left, if as many of
them are allowed as bytes remain. -/
theorem everyOnto_sound (hRead : read.Exact write admits) (hWrite : ∀ value, write value ≠ [])
    {limit : Nat} {sofar items : Array α} {cursor next : Cursor} (hLimit : cursor.remaining ≤ limit)
    (h : everyOnto read limit sofar cursor = .ok items next) :
    ∃ later : List α, items = sofar ++ later.toArray ∧ (∀ item ∈ later, admits item) ∧
      later.flatMap write = cursor.rest := by
  induction limit generalizing sofar cursor with
  | zero =>
      have hRest : cursor.rest = [] := by
        rw [← List.length_eq_zero_iff, Cursor.length_rest]
        omega
      obtain ⟨rfl, -⟩ : sofar = items ∧ cursor = next := by simpa [everyOnto] using h
      exact ⟨[], by simp, by simp, by simp [hRest]⟩
  | succ limit ih =>
      simp only [everyOnto] at h
      split at h
      case isTrue =>
        cases hItem : read cursor with
        | error error middle => simp [hItem] at h
        | ok item middle =>
            simp only [hItem] at h
            obtain ⟨hAdmits, hPrefix, rfl⟩ := hRead.sound hItem
            have hSome := List.length_pos_iff.mpr (hWrite item)
            have hLess : (cursor.advance (write item).length).remaining ≤ limit := by
              rw [Cursor.remaining_advance]
              omega
            obtain ⟨later, rfl, hAll, hLater⟩ := ih hLess h
            refine ⟨item :: later, by simp, by simpa using ⟨hAdmits, hAll⟩, ?_⟩
            rw [List.flatMap_cons, hLater, Cursor.rest_advance]
            exact List.prefix_iff_eq_append.mp hPrefix
      case isFalse hMore =>
        have hRest : cursor.rest = [] := by
          rw [Cursor.hasMore_iff] at hMore
          exact Decidable.not_not.mp hMore
        obtain ⟨rfl, -⟩ : sofar = items ∧ cursor = next := by simpa using h
        exact ⟨[], by simp, by simp, by simp [hRest]⟩

/-- Items of which each is read wherever its bytes stand. -/
theorem everyOnto_of_forall {later : List α}
    (hRead : ∀ item ∈ later, ∀ {cursor : Cursor}, write item <+: cursor.rest →
      read cursor = .ok item (cursor.advance (write item).length))
    (hWrite : ∀ value, write value ≠ []) {limit : Nat} {sofar : Array α} {cursor : Cursor}
    (hLimit : later.length ≤ limit) (hRest : later.flatMap write = cursor.rest) :
    everyOnto read limit sofar cursor =
      .ok (sofar ++ later.toArray) (cursor.advance cursor.remaining) := by
  induction later generalizing limit sofar cursor with
  | nil =>
      have hNone : ¬ cursor.hasMore = true := by
        rw [Cursor.hasMore_iff]
        exact not_not_intro hRest.symm
      have hEnd : cursor.remaining = 0 := by rw [← Cursor.length_rest, ← hRest]; rfl
      cases limit with
      | zero => simp [everyOnto, hEnd]
      | succ limit => simp [everyOnto, hNone, hEnd]
  | cons item later ih =>
      obtain ⟨limit, rfl⟩ : ∃ fewer, limit = fewer + 1 :=
        Nat.exists_eq_succ_of_ne_zero (Nat.ne_zero_of_lt hLimit)
      rw [List.flatMap_cons] at hRest
      obtain ⟨hItem, hLater⟩ := List.forall_mem_cons.mp hRead
      have hPrefix : write item <+: cursor.rest := ⟨_, hRest⟩
      have hMore : cursor.hasMore = true := by
        rw [Cursor.hasMore_iff, ← hRest]
        simp [hWrite item]
      have hNext : later.flatMap write = (cursor.advance (write item).length).rest := by
        rw [Cursor.rest_advance, ← hRest]
        simp
      have hEvery := @ih hLater limit (sofar.push item) _ (by simpa using hLimit) hNext
      have hInside := Cursor.length_le_remaining hPrefix
      rw [Cursor.remaining_advance, Cursor.advance_advance, Nat.add_sub_cancel' hInside] at hEvery
      simp only [everyOnto, hMore, if_true, hItem hPrefix]
      simpa using hEvery

/-- A row of items and nothing else. -/
theorem every_sound (hRead : read.Exact write admits) (hWrite : ∀ value, write value ≠ [])
    {items : Array α} {cursor next : Cursor} (h : every read cursor = .ok items next) :
    (∀ item ∈ items.toList, admits item) ∧ items.toList.flatMap write = cursor.rest := by
  obtain ⟨later, rfl, hAll, hRest⟩ := everyOnto_sound hRead hWrite (Nat.le_refl _) h
  simpa using ⟨hAll, hRest⟩

/-- A row of items is read to the end of the bytes if each item is read wherever it stands. -/
theorem every_of_forall {items : Array α}
    (hRead : ∀ item ∈ items.toList, ∀ {cursor : Cursor}, write item <+: cursor.rest →
      read cursor = .ok item (cursor.advance (write item).length))
    (hWrite : ∀ value, write value ≠ []) {cursor : Cursor}
    (hRest : items.toList.flatMap write = cursor.rest) :
    every read cursor = .ok items (cursor.advance cursor.remaining) := by
  have hLimit : items.toList.length ≤ cursor.remaining := by
    rw [← Cursor.length_rest, ← hRest]
    exact length_le_length_flatMap hWrite _
  rw [every, everyOnto_of_forall hRead hWrite hLimit hRest]
  simp

/-- A row of admitted items is read to the end of the bytes. The size matters only where an item
counts its own parts. -/
theorem every_complete (hRead : read.Exact write admits) (hWrite : ∀ value, write value ≠ [])
    {items : Array α} {cursor : Cursor} (hAll : ∀ item ∈ items.toList, admits item)
    (hSize : (items.toList.flatMap write).length < UInt64.size)
    (hRest : items.toList.flatMap write = cursor.rest) :
    ∃ next, every read cursor = .ok items next := by
  refine ⟨_, every_of_forall ?_ hWrite hRest⟩
  intro item hItem cursor hPrefix
  have hPart : (write item).length ≤ (items.toList.flatMap write).length := by
    rw [List.flatMap_def]
    exact (List.sublist_flatten_of_mem (List.mem_map_of_mem hItem)).length_le
  exact hRead.complete (hAll item hItem) (Nat.lt_of_le_of_lt hPart hSize) hPrefix

/-- Items of which each is read whatever its length is are read from their bytes, and nothing is
left over. -/
theorem every_eq_ok
    (h : ∀ {cursor next : Cursor} {value : α}, read cursor = .ok value next ↔
      admits value ∧ write value <+: cursor.rest ∧ next = cursor.advance (write value).length)
    (hWrite : ∀ value, write value ≠ []) {items : Array α} {cursor next : Cursor} :
    every read cursor = .ok items next ↔
      (∀ item ∈ items.toList, admits item) ∧ items.toList.flatMap write = cursor.rest ∧
        next = cursor.advance cursor.remaining := by
  have hComplete (hAll : ∀ item ∈ items.toList, admits item)
      (hRest : items.toList.flatMap write = cursor.rest) :
      every read cursor = .ok items (cursor.advance cursor.remaining) :=
    every_of_forall (fun item hItem _ hPrefix => h.mpr ⟨hAll item hItem, hPrefix, rfl⟩) hWrite hRest
  constructor
  · intro hEvery
    obtain ⟨hAll, hRest⟩ := every_sound (Exact.of_eq_ok h) hWrite hEvery
    rw [hComplete hAll hRest] at hEvery
    exact ⟨hAll, hRest, (EStateM.Result.ok.inj hEvery).2.symm⟩
  · intro hItems
    obtain ⟨hAll, hRest, rfl⟩ := hItems
    exact hComplete hAll hRest

end Every

end Read

namespace Codec

variable {α β : Type}

/-- A codec reads what it writes and nothing else. Which values it reads may depend on
the version. -/
def Exact (codec : Codec α) (admits : UInt32 → α → Prop) : Prop :=
  ∀ version, (codec.read version).Exact codec.write (admits version)

namespace Exact

variable {codec : Codec α} {admits : UInt32 → α → Prop}

theorem congr {other : UInt32 → α → Prop} (hCodec : codec.Exact admits)
    (h : ∀ version value, admits version value ↔ other version value) : codec.Exact other :=
  fun version => (hCodec version).congr (h version)

/-- A codec in another guise. Every value goes there and back without a change, and every admitted
part does. -/
theorem map (hCodec : codec.Exact admits) {into : α → β} {back : β → α}
    (hInto : ∀ value, into (back value) = value)
    (hBack : ∀ version value, admits version value → back (into value) = value) :
    (codec.map into back).Exact fun version value => admits version (back value) := by
  intro version
  refine ((hCodec version).map into back (hBack version)).congr fun value => ?_
  simp [hInto]

/-- The form of the second part depends on the first one, which is written in front of it and so is
known by then. -/
theorem andThen (hCodec : codec.Exact admits) {second : α → Codec β}
    {admitsSecond : α → UInt32 → β → Prop}
    (hSecond : ∀ value, (second value).Exact (admitsSecond value)) :
    (codec.andThen second).Exact fun version value =>
      admits version value.1 ∧ admitsSecond value.1 version value.2 := by
  intro version
  have hPair (first : α) := (hSecond first version).map (fun value => (first, value)) Prod.snd
    fun _ _ => rfl
  refine ((hCodec version).bind Prod.fst hPair ?_).congr ?_
  · intro first value h
    obtain ⟨_, hValue⟩ := h
    rw [← hValue]
  · simp

theorem pair (hCodec : codec.Exact admits) {second : Codec β} {admitsSecond : UInt32 → β → Prop}
    (hSecond : second.Exact admitsSecond) :
    (codec.pair second).Exact fun version value =>
      admits version value.1 ∧ admitsSecond version value.2 :=
  hCodec.andThen fun _ => hSecond

/-- A part that is there exactly if something in front of it says so. -/
theorem when (hCodec : codec.Exact admits) (present : Bool) :
    (codec.when present).Exact fun version value =>
      value.isSome = present ∧ ∀ some ∈ value, admits version some := by
  intro version
  apply Read.Exact.mk
  · intro cursor next value h
    simp only [Codec.when, Read.ite_eq_ok, Read.bind_eq_ok, Read.pure_eq_ok] at h
    rcases h with ⟨rfl, given, _, hRead, rfl, rfl⟩ | ⟨hNone, rfl, rfl⟩
    · obtain ⟨hAdmits, hWritten⟩ := (hCodec version).sound hRead
      exact ⟨⟨rfl, by simpa using hAdmits⟩, hWritten⟩
    · simpa [Codec.when] using hNone
  · intro cursor value hValue hSize hPrefix
    rcases hValue with ⟨rfl, hAdmits⟩
    cases value with
    | none => rfl
    | some given =>
        simp only [Codec.when, Read.ite_eq_ok, Read.bind_eq_ok, Read.pure_eq_ok]
        exact .inl ⟨rfl, given, _,
          (hCodec version).complete (hAdmits given rfl) hSize hPrefix, rfl, rfl⟩

/-- A list is counted in front, and has every item in its own form. Each has to take a byte, since
counts are held against the bytes that are left. -/
theorem list (hCodec : codec.Exact admits) (hWrite : ∀ value, codec.write value ≠ []) :
    (codec.list).Exact fun version items => ∀ item ∈ items, admits version item :=
  fun version => (hCodec version).counted hWrite

end Exact

theorem exact_byte : byte.Exact fun _ _ => True := by
  refine fun _ => .of_eq_ok ?_
  simp [byte, Read.byte_eq_ok]

/-- A byte with a meaning is read if it stands for no two meanings. -/
theorem exact_tag (what : String) {encode : α → UInt8} {decode? : UInt8 → Option α}
    (h : ∀ value meaning, decode? value = some meaning → encode meaning = value) :
    (tag what encode decode?).Exact fun _ value => decode? (encode value) = some value := by
  intro version
  apply Read.Exact.of_eq_ok
  intro cursor next value
  simp only [tag, Read.bind_eq_ok, Read.offset_eq_ok, Read.byte_eq_ok]
  constructor
  · intro hResult
    rcases hResult with ⟨_, _, ⟨rfl, rfl⟩, given, _, ⟨hPrefix, rfl⟩, hRead⟩
    cases hMeaning : decode? given with
    | none => simp [hMeaning] at hRead
    | some meaning =>
        simp only [hMeaning, Read.pure_eq_ok] at hRead
        obtain ⟨rfl, rfl⟩ := hRead
        obtain rfl := h given meaning hMeaning
        exact ⟨hMeaning, hPrefix, rfl⟩
  · intro hResult
    rcases hResult with ⟨hMeaning, hPrefix, rfl⟩
    refine ⟨_, _, ⟨rfl, rfl⟩, encode value, _, ⟨hPrefix, rfl⟩, ?_⟩
    simp [hMeaning]

/-- A flag is the byte zero or one. -/
theorem exact_flag (what : String) : (flag what).Exact fun _ _ => True := by
  intro version
  apply Read.Exact.of_eq_ok
  intro cursor next value
  simp only [flag, Read.flag, Read.bind_eq_ok, Read.offset_eq_ok, Read.byte_eq_ok, true_and]
  constructor
  · intro h
    obtain ⟨_, _, ⟨rfl, rfl⟩, given, _, ⟨hPrefix, rfl⟩, hRead⟩ := h
    split at hRead
    · obtain ⟨rfl, rfl⟩ := Read.pure_eq_ok.mp hRead
      exact ⟨hPrefix, rfl⟩
    · obtain ⟨rfl, rfl⟩ := Read.pure_eq_ok.mp hRead
      exact ⟨hPrefix, rfl⟩
    · exact (Read.throw_eq_ok.mp hRead).elim
  · intro h
    obtain ⟨hPrefix, rfl⟩ := h
    refine ⟨_, _, ⟨rfl, rfl⟩, _, _, ⟨hPrefix, rfl⟩, ?_⟩
    cases value <;> simp

theorem exact_block (count : Nat) : (block count).Exact fun _ _ => True := by
  intro version
  apply Read.Exact.of_eq_ok
  intro cursor next value
  simp [block, Read.block_eq_ok, value.property]

theorem exact_word (count : Nat) : (word count).Exact fun _ _ => True := by
  intro version
  apply Read.Exact.of_eq_ok
  intro cursor next value
  simp only [word, Read.bind_eq_ok, Read.pure_eq_ok, LittleEndian.length_encode, true_and]
  rw [← Read.word_eq_ok]
  constructor
  · intro h
    obtain ⟨n, _, hRead, hValue, rfl⟩ := h
    exact ⟨n, hRead, hValue⟩
  · intro h
    obtain ⟨n, hRead, hValue⟩ := h
    exact ⟨n, next, hRead, hValue, rfl⟩

theorem exact_index : index.Exact fun _ _ => True := by
  intro version
  apply Read.Exact.of_eq_ok
  intro cursor next value
  simp [index, Read.index_eq_ok]

theorem exact_uleb128 : uleb128.Exact fun _ _ => True := by
  intro version
  apply Read.Exact.of_eq_ok
  intro cursor next value
  simp only [uleb128, Read.bind_eq_ok, Read.pure_eq_ok, Read.uleb128_eq_ok, true_and]
  constructor
  · intro h
    obtain ⟨n, _, ⟨hSize, hWritten⟩, rfl, rfl⟩ := h
    rw [UInt64.toNat_ofNat_of_lt' hSize]
    exact hWritten
  · intro hWritten
    exact ⟨_, _, ⟨value.toNat_lt, hWritten⟩, UInt64.ofNat_toNat, rfl⟩

/-- The length of the bytes stands in front of them and is checked before they are read. -/
theorem exact_byteString : byteString.Exact fun _ _ => True := by
  intro version
  apply Read.Exact.mk
  · intro cursor next bytes h
    exact ⟨trivial, (Read.byteString_eq_ok.mp h).2⟩
  · intro cursor bytes _ hSize hPrefix
    refine Read.byteString_eq_ok.mpr ⟨?_, hPrefix, rfl⟩
    simp only [byteString, List.length_append] at hSize
    omega

end Codec

end MoveModule.Binary
