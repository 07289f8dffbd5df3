import MoveModule.Binary.Operation
import MoveModule.Proofs.Binary.Machine

/-! A reader under any use. A program moves a reader and reads with it in any order, and goes on
after bytes were refused. Each operation is answered or refused by what stands in front of the
reader alone, whatever was done with it before. The one exception is a block of no bytes behind
the end of the bytes, for which a slice is taken there. -/
namespace MoveModule.Binary.Operation

open Read (left mapError)

/-- What an operation reads. -/
def read : Operation → Read Answer
  | position => do return .number (← get).position
  | offset => do return .number (← Read.offset)
  | remaining => do return .number (← get).remaining
  | hasMore => do return .flag (← get).hasMore
  | seek place => do
      modify fun cursor => cursor.seek place
      return .done
  | byte => do return .number (← Read.byte).toNat
  | littleEndian size _ => do return .number (← Read.littleEndian size)
  | block size => do return .bytes (← Read.take size)
  | uleb128 => do return .number (← Read.uleb128)
  | bounded max => do return .number (← Read.bounded max)
  | index => do return .number (← Read.index).toNat
  | count => do return .number (← Read.count)
  | byteString => do return .bytes (← Read.byteString)
  | text => do return .text (← Read.text)
  | flag what => do return .flag (← Read.flag what)

/-- The cursor is behind the end of its bytes and the operation takes a block of none of them. -/
def Overruns (operation : Operation) (cursor : Cursor) : Prop :=
  operation = block 0 ∧ cursor.bytes.size < cursor.position

instance (operation : Operation) (cursor : Cursor) : Decidable (operation.Overruns cursor) :=
  inferInstanceAs (Decidable (_ ∧ _))

/-- What is answered, and where the reader is left. -/
def outcome : EStateM.Result DecodeError Cursor Answer → Except DecodeError Answer × Cursor
  | .ok answer next => (.ok answer, next)
  | .error error next => (.error error, next)

/-- The operations of a program with the cursor that each of them finds. -/
def steps : List Operation → Cursor → List (Operation × Cursor)
  | [], _ => []
  | operation :: rest, cursor => (operation, cursor) :: steps rest (left (operation.read cursor))

/-- No operation of the program leaves the reader at a place that is no word. -/
def StaysAmongWords (operations : List Operation) (cursor : Cursor) : Prop :=
  ∀ step ∈ steps operations cursor, (left (step.1.read step.2)).offset < UInt64.size

instance (operations : List Operation) (cursor : Cursor) :
    Decidable (StaysAmongWords operations cursor) :=
  inferInstanceAs (Decidable (∀ _ ∈ _, _))

section

variable {operation : Operation} {cursor : Cursor}

/-- An operation does what it reads, whatever the cursor is. -/
theorem perform_eq (hPlace : (left (operation.read cursor)).offset < UInt64.size)
    (hInside : ¬ operation.Overruns cursor) :
    operation.perform cursor = mapError .refusal operation.read cursor := by
  cases operation with
  | position | remaining | hasMore | seek => rfl
  | offset => exact Machine.agrees_offset.map.same hPlace
  | byte => exact Machine.agrees_byte.map.same hPlace
  | littleEndian size positive =>
      exact (Machine.agrees_littleEndian positive).map.same hPlace
  | block size =>
      have hEnd : 0 < size ∨ cursor.position ≤ cursor.bytes.size := by
        by_contra hNone
        rw [not_or, Nat.not_lt, Nat.le_zero, Nat.not_le] at hNone
        exact hInside ⟨congrArg block hNone.1, hNone.2⟩
      exact (Machine.agrees_slice hEnd).map.same hPlace
  | uleb128 => exact Machine.agrees_uleb128.map.same hPlace
  | bounded max => exact Machine.agrees_bounded.map.same hPlace
  | index => exact Machine.agrees_index.map.same hPlace
  | count => exact Machine.agrees_count.map.same hPlace
  | byteString => exact Machine.agrees_byteString.map.same hPlace
  | text => exact Machine.agrees_text.map.same hPlace
  | flag what => exact Machine.agrees_flag.map.same hPlace

/-- Behind the end of the bytes there is not even a slice of none of them. -/
theorem perform_of_overruns (hPlace : (left (operation.read cursor)).offset < UInt64.size)
    (hOverruns : operation.Overruns cursor) :
    operation.perform cursor =
      .error (.fault (.slice cursor.position cursor.position cursor.bytes.size)) cursor := by
  obtain ⟨rfl, hBehind⟩ := hOverruns
  have hBlock : Read.block 0 cursor = .ok ⟨cursor.ahead 0, _⟩ cursor :=
    dif_pos (Nat.zero_le cursor.remaining)
  have hRead : (block 0).read cursor = .ok (.bytes (cursor.ahead 0)) cursor :=
    Read.bind_of_eq_ok (Read.bind_of_eq_ok hBlock)
  rw [hRead] at hPlace
  have hHere : cursor.base + cursor.position < UInt64.size := hPlace
  have hSlice : Machine.slice 0 cursor =
      .error (.fault (.slice cursor.position cursor.position cursor.bytes.size)) cursor := by
    rw [Machine.slice, Read.get_bind, if_neg (Nat.not_lt_zero _), Machine.add_of_lt (by omega),
      pure_bind, Nat.add_zero, Machine.cut, if_neg (by omega)]
    rfl
  exact Read.bind_of_eq_error hSlice

/-- An operation that does not stop is followed by the others, from where it left the reader. -/
theorem run_cons {rest : List Operation}
    (hPlace : (left (operation.read cursor)).offset < UInt64.size)
    (hInside : ¬ operation.Overruns cursor) :
    run (operation :: rest) cursor =
      (run rest (left (operation.read cursor))).map (outcome (operation.read cursor) :: ·) := by
  rw [run, perform_eq hPlace hInside, mapError]
  cases operation.read cursor with
  | ok answer next =>
      change (run rest next >>= _) = (run rest next).map _
      cases run rest next <;> rfl
  | error error next =>
      change (run rest next >>= _) = (run rest next).map _
      cases run rest next <;> rfl

/-- A program is answered step by step up to the first block that overruns, for which it stops. -/
theorem run_eq {operations : List Operation} {cursor : Cursor}
    (hPlaces : StaysAmongWords operations cursor) :
    run operations cursor =
      match (steps operations cursor).find? fun step => step.1.Overruns step.2 with
      | none => .ok ((steps operations cursor).map fun step => outcome (step.1.read step.2))
      | some (_, place) => .error (.slice place.position place.position place.bytes.size) := by
  induction operations generalizing cursor with
  | nil => rfl
  | cons operation rest ih =>
      obtain ⟨hPlace, hRest⟩ := List.forall_mem_cons.mp hPlaces
      rw [steps]
      by_cases hOverruns : operation.Overruns cursor
      · simp only [List.find?_cons, hOverruns, decide_true]
        rw [run, perform_of_overruns hPlace hOverruns]
      · simp only [List.find?_cons, hOverruns, decide_false]
        rw [run_cons hPlace hOverruns, ih hRest]
        cases (steps rest (left (operation.read cursor))).find? _ <;> rfl

end

/-- A block that is taken is the bytes at the position, and as many as were asked for. -/
theorem perform_block {size : Nat} {cursor next : Cursor} {answer : Answer}
    (h : (block size).perform cursor = .ok answer next) :
    answer = .bytes (cursor.rest.take size) ∧ (cursor.rest.take size).length = size ∧
      next = cursor.advance size := by
  obtain ⟨bytes, _, hSlice, hAnswer⟩ := Read.bind_eq_ok.mp h
  obtain ⟨rfl, rfl⟩ := Read.pure_eq_ok.mp hAnswer
  obtain ⟨rfl, hLength, rfl⟩ := Machine.slice_of_eq_ok hSlice
  exact ⟨rfl, hLength, rfl⟩

/-- As long as all places are words, a program stops for nothing but its first block that overruns.
If there is none, each operation is answered or refused as it reads. A block that is taken is
the bytes at the position, as many as were asked for, and the reader is moved behind them. -/
theorem run_stops_only_at_overrun {operations : List Operation} {cursor : Cursor}
    (hPlaces : StaysAmongWords operations cursor) :
    (∀ outcomes, run operations cursor = .ok outcomes ↔
        (∀ step ∈ steps operations cursor, ¬ step.1.Overruns step.2) ∧
          outcomes = (steps operations cursor).map fun step => outcome (step.1.read step.2)) ∧
      (∀ fault, run operations cursor = .error fault ↔
        ∃ before step after, steps operations cursor = before ++ step :: after ∧
          (∀ earlier ∈ before, ¬ earlier.1.Overruns earlier.2) ∧ step.1.Overruns step.2 ∧
          fault = .slice step.2.position step.2.position step.2.bytes.size) ∧
      ∀ size (place next : Cursor) answer, (block size).perform place = .ok answer next →
        answer = .bytes (place.rest.take size) ∧ (place.rest.take size).length = size ∧
          next = place.advance size := by
  have hRun := run_eq hPlaces
  have hBlock (size : Nat) (place next : Cursor) (answer : Answer) :=
    @perform_block size place next answer
  cases hFirst : (steps operations cursor).find? fun step => step.1.Overruns step.2 with
  | none =>
      rw [hFirst] at hRun
      have hNone : ∀ step ∈ steps operations cursor, ¬ step.1.Overruns step.2 := by
        simpa using hFirst
      refine ⟨fun outcomes => ?_, fun fault => ?_, hBlock⟩
      · rw [hRun, Except.ok.injEq, eq_comm]
        exact ⟨fun h => ⟨hNone, h⟩, fun h => h.2⟩
      · rw [hRun]
        refine ⟨nofun, ?_⟩
        rintro ⟨before, step, after, hSteps, -, hOverruns, -⟩
        exact absurd hOverruns (hNone step (hSteps ▸ List.mem_append_right _ List.mem_cons_self))
  | some first =>
      obtain ⟨hFault, before, after, hSteps, hBefore⟩ := List.find?_eq_some_iff_append.mp hFirst
      rw [hFirst] at hRun
      refine ⟨fun outcomes => ?_, fun fault => ?_, hBlock⟩
      · rw [hRun]
        refine ⟨nofun, ?_⟩
        rintro ⟨hNone, -⟩
        exact absurd (of_decide_eq_true hFault) (hNone first (List.mem_of_find?_eq_some hFirst))
      · rw [hRun, Except.error.injEq]
        constructor
        · rintro rfl
          exact ⟨before, first, after, hSteps, by simpa using hBefore, of_decide_eq_true hFault,
            rfl⟩
        · rintro ⟨others, step, rest, hOthers, hNone, hOverruns, rfl⟩
          have hStep : (steps operations cursor).find? (fun step => step.1.Overruns step.2) =
              some step :=
            List.find?_eq_some_iff_append.mpr
              ⟨decide_eq_true hOverruns, others, rest, hOthers, by simpa using hNone⟩
          obtain rfl : first = step := Option.some.inj (hFirst.symm.trans hStep)
          rfl

/-- A reader that is moved behind its one byte stops for a block of none, and does not stop for
blocks that it cannot give or for a byte that is not there. -/
theorem run_stops_only_at_overrun_behind_end :
    (StaysAmongWords [seek 2, block 0] (Cursor.ofBytes [7]) ∧
      run [seek 2, block 0] (Cursor.ofBytes [7]) = .error (.slice 2 2 1)) ∧
    (StaysAmongWords [block 2, block 1, block 0, seek 2, byte] (Cursor.ofBytes [7]) ∧
      run [block 2, block 1, block 0, seek 2, byte] (Cursor.ofBytes [7]) =
        .ok [(.error (.unexpectedEnd 0), ⟨#[7], 0, 0⟩), (.ok (.bytes [7]), ⟨#[7], 0, 1⟩),
          (.ok (.bytes []), ⟨#[7], 0, 1⟩), (.ok .done, ⟨#[7], 0, 2⟩),
          (.error (.unexpectedEnd 2), ⟨#[7], 0, 2⟩)]) := by
  have hSeek : StaysAmongWords [seek 2, block 0] (Cursor.ofBytes [7]) := by decide
  have hBlocks :
      StaysAmongWords [block 2, block 1, block 0, seek 2, byte] (Cursor.ofBytes [7]) := by
    decide
  refine ⟨⟨hSeek, ?_⟩, hBlocks, ?_⟩
  · exact ((run_stops_only_at_overrun hSeek).2.1 _).mpr
      ⟨[(seek 2, _)], (block 0, _), [], rfl, by decide, by decide, rfl⟩
  · exact ((run_stops_only_at_overrun hBlocks).1 _).mpr ⟨by decide, rfl⟩

end MoveModule.Binary.Operation
