import MoveModule.Command.Run
import MoveModule.Proofs.Except

/-! What commands do in a directory that is held as a value. A command that makes a file
computes its bytes from the files as they are and writes them last, so all that can be said
about its effect is said about one write. -/
namespace MoveModule.Command

namespace Directory

/-- The text of a file. -/
def readText (directory : Directory) (path : String) : Except FileError String :=
  match directory.read path with
  | .ok bytes =>
      match Text.ofBytes? bytes with
      | some text => .ok text
      | none => .error .notText
  | .error error => .error error

/-- A file that holds the bytes of a text is read as this text. -/
theorem readText_of_read {directory : Directory} {path text : String}
    (h : directory.read path = .ok (Text.bytes text)) : directory.readText path = .ok text := by
  simp [readText, h, Text.ofBytes?_bytes]

/-- To read a file is to follow its path to a name and to have a file under the name. -/
theorem read_eq_ok {directory : Directory} {path : String} {bytes : List UInt8} :
    directory.read path = .ok bytes ↔
      ∃ name, directory.resolve path = .ok name ∧ directory.contents? name = some bytes := by
  rw [read, Except.bind_eq_ok]
  refine exists_congr fun name => and_congr_right fun _ => ?_
  cases directory.contents? name with
  | none => simp
  | some contents => rw [Except.pure_eq_ok, Option.some_inj]

/-- Whether a file can be written is decided by its path alone. If so the bytes are put under the
name, whatever was there. -/
theorem write_eq_ok {directory after : Directory} {path : String} {bytes : List UInt8} :
    directory.write path bytes = .ok after ↔
      ∃ name, directory.resolve path = .ok name ∧ directory.put name bytes = after := by
  simp only [write, Except.bind_eq_ok, Except.pure_eq_ok]

end Directory

namespace Action

variable {α β ε : Type} {directory : Directory}

/-- What an action gives in a directory, and the directory behind it. -/
def runIn (action : Action (StateM Directory) α) (directory : Directory) :
    Except Failure α × Directory :=
  ((ExceptT.run action).run directory).run

/-- After a failure nothing more is done, but the files stay as they have become by then. -/
theorem runIn_bind (first : Action (StateM Directory) α)
    (second : α → Action (StateM Directory) β) (directory : Directory) :
    runIn (first >>= second) directory =
      match first.runIn directory with
      | (.ok part, middle) => (second part).runIn middle
      | (.error failure, middle) => (.error failure, middle) := by
  have hRun : runIn (first >>= second) directory =
      ((ExceptT.bindCont second (first.runIn directory).1).run (first.runIn directory).2).run := rfl
  rw [hRun]
  rcases first.runIn directory with ⟨_ | part, middle⟩
  · rfl
  · rfl

/-- A check computes on what has been read, and leaves the files alone. -/
theorem runIn_check (failure : ε → Failure) (result : Except ε α) (directory : Directory) :
    runIn (check failure result) directory = (result.mapError failure, directory) := by
  cases result <;> rfl

/-- An access that fails becomes a failure of the command, with the files as the access left
them. -/
theorem runIn_orFail (failure : FileError → Failure)
    {access : StateM Directory (Except FileError α)} {result : Except FileError α}
    {after : Directory} (h : (access.run directory).run = (result, after)) :
    runIn (orFail failure access) directory = (result.mapError failure, after) := by
  have hAccess : runIn (liftM access) directory = (.ok result, after) := by
    have hRun : runIn (liftM access) directory =
        (.ok (access.run directory).run.1, (access.run directory).run.2) := rfl
    rw [hRun, h]
  rw [orFail, runIn_bind, hAccess]
  cases result <;> rfl

/-- A module is read without a change to the files. -/
theorem runIn_readModule (path : String) (directory : Directory) :
    runIn (readModule Directory.access path) directory =
      ((directory.read path).mapError (.readModule path), directory) :=
  runIn_orFail _ rfl

/-- A text is read without a change to the files, and gives what the directory holds under the
path. -/
theorem run_readText (path : String) (directory : Directory) :
    ((readText Directory.access path).run directory).run =
      (directory.readText path, directory) := by
  have hRun : ((readText Directory.access path).run directory).run =
      ((match directory.read path with
        | .ok bytes =>
            match Text.ofBytes? bytes with
            | some text => return .ok text
            | none => return .error .notText
        | .error error => return .error error : StateM Directory (Except FileError String)).run
          directory).run := rfl
  rw [hRun, Directory.readText]
  cases directory.read path with
  | error error => rfl
  | ok bytes =>
      dsimp only
      cases Text.ofBytes? bytes <;> rfl

/-- If a write fails, the files are as they were. -/
theorem run_write (path : String) (bytes : List UInt8) (directory : Directory) :
    ((Directory.access.write path bytes).run directory).run =
      match directory.write path bytes with
      | .ok after => (.ok (), after)
      | .error error => (.error error, directory) := by
  have hRun : ((Directory.access.write path bytes).run directory).run =
      ((match directory.write path bytes with
        | .ok after => do
            set after
            return .ok ()
        | .error error => return .error error : StateM Directory (Except FileError Unit)).run
          directory).run := rfl
  rw [hRun]
  cases directory.write path bytes <;> rfl

/-- Two actions that leave the files as they are. -/
theorem runIn_bind_reads {first : Action (StateM Directory) α}
    {second : α → Action (StateM Directory) β} {result : Except Failure α}
    {later : α → Except Failure β} (hFirst : first.runIn directory = (result, directory))
    (hSecond : ∀ part, (second part).runIn directory = (later part, directory)) :
    runIn (first >>= second) directory = (result >>= later, directory) := by
  rw [runIn_bind, hFirst]
  cases result with
  | error failure => rfl
  | ok part => exact hSecond part

/-- The write of a command that has computed what it writes and what it shows. -/
def writeLast (output : String) (computed : Except Failure (List UInt8 × α))
    (directory : Directory) : Except Failure α × Directory :=
  match computed with
  | .error failure => (.error failure, directory)
  | .ok (bytes, shown) =>
      match directory.write output bytes with
      | .ok after => (.ok shown, after)
      | .error error => (.error (.writeModule output error), directory)

/-- A command that ends with its write does nothing that could fail after it. -/
theorem runIn_writeModule (output : String) (bytes : List UInt8) (shown : α)
    (directory : Directory) :
    runIn (do writeModule Directory.access output bytes; return shown) directory =
      writeLast output (.ok (bytes, shown)) directory := by
  have hWrite := run_write output bytes directory
  rw [runIn_bind, writeLast]
  cases hResult : directory.write output bytes with
  | error error =>
      rw [hResult] at hWrite
      rw [writeModule, runIn_orFail _ hWrite]
      rfl
  | ok after =>
      rw [hResult] at hWrite
      rw [writeModule, runIn_orFail _ hWrite]
      rfl

/-- An action that leaves the files as they are is a part of what is computed. -/
theorem runIn_bind_writeLast {output : String} {first : Action (StateM Directory) α}
    {second : α → Action (StateM Directory) β} {result : Except Failure α}
    {later : α → Except Failure (List UInt8 × β)}
    (hFirst : first.runIn directory = (result, directory))
    (hSecond : ∀ part, (second part).runIn directory = writeLast output (later part) directory) :
    runIn (first >>= second) directory = writeLast output (result >>= later) directory := by
  rw [runIn_bind, hFirst]
  cases result with
  | error failure => rfl
  | ok part => exact hSecond part

end Action

/-- What a command shows in a directory, and the directory behind it. -/
def runIn (command : Command) (directory : Directory) : Outcome × Directory :=
  ((run Directory.access command).run directory).run

/-- The end of a command that may fail. -/
def Outcome.ofAttempt : Except Failure Outcome → Outcome
  | .ok outcome => outcome
  | .error failure => ⟨[], some failure⟩

/-- The end of a command that shows something unless it fails. -/
def Outcome.ofResult (result : Except Failure (List Span)) : Outcome :=
  ofAttempt (result.map fun spans => ⟨spans, none⟩)

theorem Outcome.failure_ofResult_ok (spans : List Span) :
    (ofResult (.ok spans)).failure = none := rfl

theorem Outcome.failure_ofResult_error (failure : Failure) :
    (ofResult (.error failure)).failure = some failure := rfl

section Outcomes

variable {command : Command} {directory after : Directory}

/-- What a command has shown at its end follows from how its actions went. A failure shows
nothing. -/
theorem runIn_eq_ofAttempt {result : Except Failure Outcome}
    (h : (action Directory.access command).runIn directory = (result, after)) :
    runIn command directory = (Outcome.ofAttempt result, after) := by
  have hRun : runIn command directory =
      ((match ((action Directory.access command).runIn directory).1 with
        | .ok outcome => return outcome
        | .error failure => return ⟨[], some failure⟩ : StateM Directory Outcome).run
          ((action Directory.access command).runIn directory).2).run := rfl
  rw [hRun, h]
  cases result <;> rfl

/-- Commands that either show something or fail. -/
theorem runIn_eq_ofResult {steps : Action (StateM Directory) (List Span)}
    {result : Except Failure (List Span)}
    (hCommand : action Directory.access command = shown steps)
    (hSteps : steps.runIn directory = (result, after)) :
    runIn command directory = (Outcome.ofResult result, after) := by
  refine runIn_eq_ofAttempt ?_
  rw [hCommand, shown, Action.runIn_bind, hSteps]
  cases result <;> rfl

end Outcomes

section Commands

variable (directory : Directory)

open MoveModule.Command.Action

/-- The plan in a file. -/
def planIn (path : String) : Except Failure Plan := do
  let text ← (directory.readText path).mapError fun error => .loadPlan path (.file error)
  (Plan.parse text).mapError fun error => .loadPlan path (.plan error)

/-- A file with the text of a plan gives the plan. -/
theorem planIn_of_read {path text : String} {plan : Plan}
    (hRead : directory.read path = .ok (Text.bytes text)) (hPlan : Plan.parse text = .ok plan) :
    planIn directory path = .ok plan := by
  rw [planIn, Directory.readText_of_read hRead, Except.mapError_ok, Except.ok_bind, hPlan,
    Except.mapError_ok]

/-- The file that a command makes, and what the command computes from the files as they are: the
bytes of that file, and what is shown after it has been written. -/
def computed? : Command → Option (String × Except Failure (List UInt8 × List Span))
  | .rename path output pairs => some (output, do
      let bytes ← (directory.read path).mapError (.readModule path)
      let renamed ← (Template.updateIdentifiers bytes pairs).mapError (.rename path)
      return (renamed, [.line s!"Renamed {pairs.length} identifier(s) -> {output}"]))
  | .patchConstant path output tag expected new => some (output, do
      let bytes ← (directory.read path).mapError (.readModule path)
      let patched ←
        (Template.updateConstants bytes tag expected new).mapError (.patchConstant path)
      return (patched, [.line (s!"Patched {tag} constant 0x{Text.Hex.encode expected} -> " ++
        s!"0x{Text.Hex.encode new} -> {output}")]))
  | .apply path planPath output => some (output, do
      let plan ← planIn directory planPath
      let bytes ← (directory.read path).mapError (.readModule path)
      let module ← (Template.deserialize bytes).mapError (.decode path)
      let derived ← derive plan module
      let patched ← (Template.serialize derived).mapError .encode
      return (patched,
        [.line (s!"Applied {plan.renames.length} rename(s) and {plan.patches.length} " ++
          s!"constant patch(es) -> {output}")]))
  | .assemble input output => some (output, do
      let text ← (directory.readText input).mapError (.readDocument input)
      match Json.parse? text >>= Module.form.read? with
      | none => throw (.malformedDocument input)
      | some module =>
          let bytes ← (Template.serialize module).mapError .invalidDocument
          return (bytes, [.line s!"Assembled {bytes.length} bytes -> {output}"]))
  | _ => none

/-- A plan is read and understood without a change to the files. -/
theorem runIn_loadPlan (path : String) :
    Action.runIn (loadPlan Directory.access path) directory =
      (planIn directory path, directory) :=
  runIn_bind_reads (runIn_orFail _ (run_readText path directory)) fun _ => runIn_check _ _ directory

/-- A module is shown as it is in the file, and the file is left as it is. -/
theorem runIn_showModule (path : String) (json : Bool) :
    Action.runIn (showModule Directory.access path json) directory =
      (do
        let bytes ← (directory.read path).mapError (.readModule path)
        let module ← (Template.deserialize bytes).mapError (.decode path)
        return if json then documentOutput (Module.form.write module) else summary module bytes,
        directory) := by
  refine runIn_bind_reads (runIn_readModule path directory) fun bytes => ?_
  refine runIn_bind_reads (runIn_check _ _ directory) fun module => ?_
  cases json <;> rfl

variable {directory} {command : Command} {output : String}

/-- A command that makes a file writes it after all else, and writes nothing besides. -/
theorem runIn_eq_writeLast {computed : Except Failure (List UInt8 × List Span)}
    (h : computed? directory command = some (output, computed)) :
    runIn command directory =
      Prod.map Outcome.ofResult id (writeLast output computed directory) := by
  cases command with
  | rename path other pairs =>
      obtain ⟨rfl, rfl⟩ := Prod.mk.inj (Option.some.inj h)
      refine runIn_eq_ofResult rfl ?_
      refine runIn_bind_writeLast (runIn_readModule path directory) fun bytes => ?_
      refine runIn_bind_writeLast (runIn_check _ _ directory) fun renamed => ?_
      exact runIn_writeModule other renamed _ directory
  | patchConstant path other tag expected new =>
      obtain ⟨rfl, rfl⟩ := Prod.mk.inj (Option.some.inj h)
      refine runIn_eq_ofResult rfl ?_
      refine runIn_bind_writeLast (runIn_readModule path directory) fun bytes => ?_
      refine runIn_bind_writeLast (runIn_check _ _ directory) fun patched => ?_
      exact runIn_writeModule other patched _ directory
  | apply path planPath other =>
      obtain ⟨rfl, rfl⟩ := Prod.mk.inj (Option.some.inj h)
      refine runIn_eq_ofResult rfl ?_
      refine runIn_bind_writeLast (runIn_loadPlan directory planPath) fun plan => ?_
      refine runIn_bind_writeLast (runIn_readModule path directory) fun bytes => ?_
      refine runIn_bind_writeLast (runIn_check _ _ directory) fun module => ?_
      have hDerive : Action.runIn (check id (derive plan module)) directory =
          (derive plan module, directory) := by
        rw [runIn_check, Except.mapError_id]
      refine runIn_bind_writeLast hDerive fun derived => ?_
      refine runIn_bind_writeLast (runIn_check _ _ directory) fun patched => ?_
      exact runIn_writeModule other patched _ directory
  | assemble input other =>
      obtain ⟨rfl, rfl⟩ := Prod.mk.inj (Option.some.inj h)
      refine runIn_eq_ofResult rfl ?_
      refine runIn_bind_writeLast (runIn_orFail _ (run_readText input directory)) fun text => ?_
      cases Json.parse? text >>= Module.form.read? with
      | none => rfl
      | some module =>
          refine runIn_bind_writeLast (runIn_check _ _ directory) fun bytes => ?_
          exact runIn_writeModule other bytes _ directory
  | _ => cases h

/-- A command that makes no file leaves the directory as it is. -/
theorem runIn_reads (h : computed? directory command = none) :
    (runIn command directory).2 = directory := by
  cases command with
  | version => rfl
  | inspect path json => rw [runIn_eq_ofResult rfl (runIn_showModule directory path json)]
  | constants path json =>
      have hList : Action.runIn (listConstants Directory.access path json) directory =
          (do
            let bytes ← (directory.read path).mapError (.readModule path)
            let constants ← (Template.constants bytes).mapError (.decode path)
            return if json then documentOutput (Constant.form.array.write constants)
              else constantList constants, directory) := by
        refine runIn_bind_reads (runIn_readModule path directory) fun bytes => ?_
        refine runIn_bind_reads (runIn_check _ _ directory) fun constants => ?_
        cases json <;> rfl
      rw [runIn_eq_ofResult rfl hList]
  | roundtrip path =>
      have hCompare : Action.runIn (roundtripModule Directory.access path) directory =
          (do
            let bytes ← (directory.read path).mapError (.readModule path)
            let module ← (Template.deserialize bytes).mapError (.decode path)
            let again ← (Template.serialize module).mapError .encode
            return compareBytes path bytes again, directory) := by
        refine runIn_bind_reads (runIn_readModule path directory) fun bytes => ?_
        refine runIn_bind_reads (runIn_check _ _ directory) fun module => ?_
        exact runIn_bind_reads (runIn_check _ _ directory) fun again => rfl
      have hEnd := @runIn_eq_ofAttempt (.roundtrip path) _ _ _ hCompare
      rw [hEnd]
  | _ => cases h

/-- Once the bytes are there and the path leads to a name, the command succeeds. It changes this one
file. -/
theorem runIn_of_computed {bytes : List UInt8} {spans : List Span} {name : String}
    (h : computed? directory command = some (output, .ok (bytes, spans)))
    (hName : directory.resolve output = .ok name) :
    runIn command directory = (⟨spans, none⟩, directory.put name bytes) := by
  have hWrite := Directory.write_eq_ok.mpr ⟨name, hName, @rfl _ (directory.put name bytes)⟩
  rw [runIn_eq_writeLast h, writeLast, hWrite]
  rfl

/-- Where nothing could be computed, nothing is shown and no file is touched. -/
theorem runIn_of_failed {failure : Failure}
    (h : computed? directory command = some (output, .error failure)) :
    runIn command directory = (⟨[], some failure⟩, directory) := by
  rw [runIn_eq_writeLast h]
  rfl

end Commands

end MoveModule.Command
