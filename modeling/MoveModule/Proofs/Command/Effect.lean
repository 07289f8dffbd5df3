import MoveModule.Command.Program
import MoveModule.Proofs.Command.Apply

/-! What a command leaves in a directory. Whatever can go wrong does so before the only write.
So either all files are as they were, or one file is new and the others are as they were. -/
namespace MoveModule.Command

/-- The path of the file that a command makes. -/
def output? : Command → Option String
  | .rename _ output _ => some output
  | .patchConstant _ output .. => some output
  | .apply _ _ output => some output
  | .assemble _ output => some output
  | _ => none

/-- A command that makes its file from the file of a module, and not from a document. -/
def changesModule : Command → Bool
  | .rename .. => true
  | .patchConstant .. => true
  | .apply .. => true
  | _ => false

variable {command : Command} {output : String} {directory : Directory}

/-- The path of the file to be made is the one in the command, whatever the directory holds. -/
theorem output?_eq (command : Command) (directory : Directory) :
    command.output? = (computed? directory command).map Prod.fst := by
  cases command <;> rfl

/-- The file that is made from the file of a module is the file of a module. -/
theorem intact_of_computed (hCommand : command.changesModule = true) {bytes : List UInt8}
    {spans : List Span} (h : computed? directory command = some (output, .ok (bytes, spans))) :
    ∃ module, Template.Intact module ∧ module.encode = bytes := by
  cases command with
  | rename path other pairs =>
      obtain ⟨-, hBytes⟩ := Prod.mk.inj (Option.some.inj h)
      simp only [Except.bind_eq_ok, Except.mapError_eq_ok, Except.pure_eq_ok, Prod.mk.injEq,
        Template.updateIdentifiers_eq_ok] at hBytes
      obtain ⟨file, -, result, ⟨module, renamed, hModule, hRename, hResult⟩, rfl, -⟩ := hBytes
      obtain ⟨-, hEncode⟩ := Template.serialize_eq_ok.mp hResult
      exact ⟨renamed, (Template.Intact.of_deserialize hModule).rename hRename, hEncode⟩
  | patchConstant path other tag expected new =>
      obtain ⟨-, hBytes⟩ := Prod.mk.inj (Option.some.inj h)
      simp only [Except.bind_eq_ok, Except.mapError_eq_ok, Except.pure_eq_ok, Prod.mk.injEq,
        Template.updateConstants_eq_ok] at hBytes
      obtain ⟨file, -, result, ⟨type, module, patched, place, -, hModule, hReplace, hResult⟩,
        rfl, -⟩ := hBytes
      obtain ⟨-, hEncode⟩ := Template.serialize_eq_ok.mp hResult
      exact ⟨patched, (Template.Intact.of_deserialize hModule).replaceConstant hReplace, hEncode⟩
  | apply path planPath other =>
      obtain ⟨-, hBytes⟩ := Prod.mk.inj (Option.some.inj h)
      simp only [Except.bind_eq_ok, Except.mapError_eq_ok, Except.pure_eq_ok, Prod.mk.injEq]
        at hBytes
      obtain ⟨plan, -, file, -, module, hModule, derived, hDerive, result, hResult, rfl, -⟩ :=
        hBytes
      obtain ⟨-, hEncode⟩ := Template.serialize_eq_ok.mp hResult
      exact ⟨derived, intact_derive (.of_deserialize hModule) hDerive, hEncode⟩
  | _ => cases hCommand

/-- How a command that makes a file can end. -/
theorem runIn_cases (hOutput : command.output? = some output) (directory : Directory) :
    (∃ failure, runIn command directory = (⟨[], some failure⟩, directory)) ∨
      ∃ name bytes spans, directory.resolve output = .ok name ∧
        computed? directory command = some (output, .ok (bytes, spans)) ∧
        runIn command directory = (⟨spans, none⟩, directory.put name bytes) := by
  rw [output?_eq command directory, Option.map_eq_some_iff] at hOutput
  obtain ⟨⟨path, computed⟩, hComputed, hPath⟩ := hOutput
  obtain rfl : output = path := hPath.symm
  cases computed with
  | error failure => exact .inl ⟨failure, runIn_of_failed hComputed⟩
  | ok made =>
      obtain ⟨bytes, spans⟩ := made
      cases hName : directory.resolve output with
      -- There is no place for the file, so the write itself is what fails.
      | error error =>
          refine .inl ⟨.writeModule output error, ?_⟩
          rw [runIn_eq_writeLast hComputed, Action.writeLast, Directory.write, hName]
          rfl
      | ok name =>
          exact .inr ⟨name, bytes, spans, rfl, hComputed, runIn_of_computed hComputed hName⟩

/-- What is in a directory after a command that makes a file: what was there before if the
command has failed, and otherwise the new file and all other files as before. The new file can
be read if it was made from a file, unless it has become too long. -/
structure AllOrNothing (command : Command) (output : String) (before : Directory) (failed : Prop)
    (after : Directory) : Prop where
  nothing : failed → after = before
  all : ¬ failed → ∃ name bytes, before.resolve output = .ok name ∧
    after.contents? name = some bytes ∧
    (∀ other, other ≠ name → after.contents? other = before.contents? other) ∧
    (command.changesModule = true → bytes.length < UInt32.size →
      ∃ module, Template.deserialize bytes = .ok module)

/-- A command that makes a file leaves all files as they are if it fails, and otherwise changes no
other file than this one. -/
theorem runIn_allOrNothing (hOutput : command.output? = some output) (directory : Directory) :
    AllOrNothing command output directory ((runIn command directory).1.failure ≠ none)
      (runIn command directory).2 := by
  obtain ⟨failure, hRun⟩ | ⟨name, bytes, spans, hName, hComputed, hRun⟩ :=
    runIn_cases hOutput directory
  · rw [hRun]
    exact ⟨fun _ => rfl, fun hOk => absurd (Option.some_ne_none failure) hOk⟩
  · rw [hRun]
    refine ⟨fun hFailed => absurd rfl hFailed, fun _ => ⟨name, bytes, hName, ?_, ?_, ?_⟩⟩
    · rw [Directory.contents?_put, if_pos rfl]
    · intro other hOther
      rw [Directory.contents?_put, if_neg hOther]
    · intro hCommand hSize
      obtain ⟨module, hModule, rfl⟩ := intact_of_computed hCommand hComputed
      exact ⟨module, hModule.deserialize_encode hSize⟩

section Program

variable (surroundings : Surroundings) {words : List String}

/-- The end of the program in a directory, and the directory behind it. -/
def executeIn (words : List String) (directory : Directory) : Exit × Directory :=
  ((execute Directory.access surroundings words).run directory).run

/-- Words that are no command have no effect on files. -/
theorem executeIn_of_stop {stop : Stop} (h : parse words = .error stop) (directory : Directory) :
    executeIn surroundings words directory = (stop.exit, directory) := by
  rw [executeIn, execute, h]
  rfl

/-- A command that was understood has the effect and the end of its run. -/
theorem executeIn_of_invocation {invocation : Invocation} (h : parse words = .ok invocation)
    (directory : Directory) :
    executeIn surroundings words directory =
      ((runIn invocation.command directory).1.exit (useColors surroundings invocation.color),
        (runIn invocation.command directory).2) := by
  rw [executeIn, execute, h]
  rfl

/-- The code at the end tells a failure from everything else. -/
theorem Outcome.code_exit (colors : Bool) (outcome : Outcome) :
    (outcome.exit colors).code ≠ 0 ↔ outcome.failure ≠ none := by
  rw [exit]
  cases outcome.failure <;> simp

end Program

/-- A command that makes a file makes it or leaves all files as they are, with any arguments
and in any directory. It may write where it has read. For the program the same goes, and it
touches no file if its words are no command, or one that makes no file. -/
theorem files_all_or_nothing :
    (∀ (command : Command) (output : String) (directory : Directory),
      command.output? = some output →
        AllOrNothing command output directory ((runIn command directory).1.failure ≠ none)
          (runIn command directory).2) ∧
    ∀ (surroundings : Surroundings) (words : List String) (directory : Directory),
      (∀ stop, parse words = .error stop →
        (executeIn surroundings words directory).2 = directory) ∧
      (∀ invocation, parse words = .ok invocation → invocation.command.output? = none →
        (executeIn surroundings words directory).2 = directory) ∧
      ∀ invocation output, parse words = .ok invocation →
        invocation.command.output? = some output →
          AllOrNothing invocation.command output directory
            ((executeIn surroundings words directory).1.code ≠ 0)
            (executeIn surroundings words directory).2 := by
  refine ⟨fun command output directory hOutput => runIn_allOrNothing hOutput directory, ?_⟩
  intro surroundings words directory
  refine ⟨?_, ?_, ?_⟩
  · intro stop hStop
    rw [executeIn_of_stop surroundings hStop]
  · intro invocation hInvocation hOutput
    rw [executeIn_of_invocation surroundings hInvocation]
    rw [output?_eq _ directory, Option.map_eq_none_iff] at hOutput
    exact runIn_reads hOutput
  · intro invocation output hInvocation hOutput
    rw [executeIn_of_invocation surroundings hInvocation, Outcome.code_exit]
    exact runIn_allOrNothing hOutput directory

/-- A module is changed in its own file, and a file that stands there is kept when a name that
is asked for is none. -/
theorem files_all_or_nothing_limit :
    (runIn (.rename "m" "p" [("M", "")]) limitDirectory).1.failure ≠ none ∧
      (runIn (.rename "m" "p" [("M", "")]) limitDirectory).2 = limitDirectory ∧
      parse ["apply", "m", "-om", "-pp"] = .ok ⟨.apply "m" "p" "m", none⟩ ∧
      ∃ bytes module,
        (executeIn ⟨false, none⟩ ["apply", "m", "-om", "-pp"] limitDirectory).2.contents? "m" =
          some bytes ∧
        (executeIn ⟨false, none⟩ ["apply", "m", "-om", "-pp"] limitDirectory).2.contents? "p" =
          some (Text.bytes limitPlanText) ∧
        Template.deserialize bytes = .ok module := by
  have hFailed : (runIn (.rename "m" "p" [("M", "")]) limitDirectory).1.failure ≠ none := by
    have hComputed : computed? limitDirectory (.rename "m" "p" [("M", "")]) =
        some ("p", .error (.rename "m" (.rename (.invalidIdentifier "M" "")))) := by
      have hError : Template.updateIdentifiers Template.limitBytes [("M", "")] =
          .error (.rename (.invalidIdentifier "M" "")) := by
        rw [Template.updateIdentifiers, Template.deserialize_limitBytes]
        rfl
      rw [computed?, read_limitDirectory, Except.mapError_ok, Except.ok_bind, hError,
        Except.mapError_error]
      rfl
    rw [runIn_of_failed hComputed]
    exact Option.some_ne_none _
  have hParse : parse ["apply", "m", "-om", "-pp"] = .ok ⟨.apply "m" "p" "m", none⟩ := rfl
  have hComputed := @computed?_apply_of_derive _ _ _ _ "m" "p" "m" _ read_limitDirectory
    planIn_limitDirectory Template.deserialize_limitBytes derive_limitPlan
  have hRun := @runIn_of_computed _ _ _ _ _ "m" hComputed rfl
  obtain ⟨hCommand, hProgram⟩ := files_all_or_nothing
  obtain ⟨hNothing, -⟩ := hCommand (.rename "m" "p" [("M", "")]) "p" limitDirectory rfl
  obtain ⟨-, hAll⟩ := (hProgram ⟨false, none⟩ _ limitDirectory).2.2 _ "m" hParse rfl
  rw [executeIn_of_invocation _ hParse, hRun] at hAll ⊢
  obtain ⟨name, bytes, hName, hContents, hOthers, hRead⟩ := hAll (fun hCode => hCode rfl)
  obtain rfl : "m" = name := Except.ok.inj hName
  rw [Directory.contents?_put, if_pos rfl, Option.some_inj] at hContents
  subst hContents
  obtain ⟨module, hModule⟩ := hRead rfl (by decide +kernel)
  refine ⟨hFailed, hNothing hFailed, hParse, limitsModule.encode, module, ?_, ?_, hModule⟩
  · rw [Directory.contents?_put, if_pos rfl]
  · rw [hOthers "p" (by decide)]
    exact contents?_limitDirectory.2

end MoveModule.Command
