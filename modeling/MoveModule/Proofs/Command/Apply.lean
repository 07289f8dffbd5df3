import MoveModule.Proofs.Command.Directory
import MoveModule.Proofs.Plan
import MoveModule.Proofs.Template.Edit

/-! A plan is carried out in memory: the module is read once, changed step by step and written
once. This does what a user gets who makes the same changes one after the other, each in the
file that the one before has left. -/
namespace MoveModule

open Template (Edit)

namespace Plan

/-- The changes that a plan makes, in their order. Names come first, if there are any. -/
def edits (plan : Plan) : List Edit :=
  (if plan.renames.isEmpty then [] else [.rename plan.renames]) ++ plan.patches.map .replace

/-- In a plan that was checked, every type of a constant has been read from a tag. So the tag that
it is shown with is read as the same type. -/
theorem tagged_of_validate {renames : List (String × String)} {patches : List ConstantPatch}
    {plan : Plan} (h : validate renames patches = .ok plan) :
    ∀ edit ∈ plan.edits, edit.Tagged := by
  intro edit hEdit
  rcases List.mem_append.mp hEdit with hRename | hReplace
  · split at hRename
    · cases hRename
    · rw [List.mem_singleton.mp hRename]
      exact trivial
  · obtain ⟨patch, hPatch, rfl⟩ := List.mem_map.mp hReplace
    exact (tag_of_validate h patch hPatch).1

end Plan

namespace Command

variable {module derived : Module} {plan : Plan}

/-- A step of a plan differs from the edit only in what it says when it fails. -/
theorem patchStep_eq_ok {patch : PlannedPatch} {step : Nat} :
    patchStep module (patch, step) = .ok derived ↔
      (Edit.replace patch).change module = some derived := by
  simp only [patchStep, Except.bind_eq_ok, Except.mapError_eq_ok, Except.pure_eq_ok, Prod.exists,
    Edit.change_replace]
  constructor
  · intro h
    obtain ⟨_, place, hReplace, rfl⟩ := h
    exact ⟨place, hReplace⟩
  · intro h
    obtain ⟨place, hReplace⟩ := h
    exact ⟨derived, place, hReplace, rfl⟩

/-- The steps of a plan are numbered only for what is said when one fails. -/
theorem foldlM_patchStep_eq_ok {patches : List PlannedPatch} {first : Nat} :
    (patches.zipIdx first).foldlM patchStep module = .ok derived ↔
      (patches.map Edit.replace).foldlM Edit.change module = some derived := by
  induction patches generalizing first module with
  | nil =>
      rw [List.zipIdx_nil, List.map_nil, List.foldlM_nil, List.foldlM_nil, Except.pure_eq_ok]
      exact Option.some_inj.symm
  | cons patch rest ih =>
      simp only [List.zipIdx_cons, List.map_cons, List.foldlM_cons, Except.bind_eq_ok,
        Option.bind_eq_bind, Option.bind_eq_some_iff, patchStep_eq_ok, ih]

/-- A plan is carried out as its edits are, one after the other, the names first. -/
theorem derive_eq_ok :
    derive plan module = .ok derived ↔ plan.edits.foldlM Edit.change module = some derived := by
  rw [derive, renameStep, Plan.edits]
  split
  -- Without new names the module goes into the patches as it is.
  · exact foldlM_patchStep_eq_ok
  · simp only [List.cons_append, List.nil_append, List.foldlM_cons, Except.bind_eq_ok,
      Except.mapError_eq_ok, Option.bind_eq_bind, Option.bind_eq_some_iff, Edit.change_rename,
      foldlM_patchStep_eq_ok]

theorem intact_derive (hModule : Template.Intact module)
    (h : derive plan module = .ok derived) : Template.Intact derived :=
  hModule.foldlM_change (derive_eq_ok.mp h)

/-- What the changes of a plan come to in memory, and in the files one after the other. The last
check before writing is no more than one of those that the files go through. -/
theorem serialize_derive_iff {renames : List (String × String)} {patches : List ConstantPatch}
    {bytes result : List UInt8} (hPlan : Plan.validate renames patches = .ok plan)
    (hModule : Template.deserialize bytes = .ok module)
    (hShort : Template.ShortBetween plan.edits bytes) :
    (∃ derived, derive plan module = .ok derived ∧ Template.serialize derived = .ok result) ↔
      plan.edits.foldlM Edit.update bytes = .ok result := by
  have hIntact := Template.Intact.of_deserialize hModule
  have hBytes : module.encode = bytes :=
    (Template.serialize_eq_ok.mp (Template.serialize_of_deserialize hModule)).2
  rw [Template.foldlM_update_eq_ok (Plan.tagged_of_validate hPlan) hIntact hBytes
    (fun _ => hModule) hShort]
  refine exists_congr fun derived => ?_
  rw [derive_eq_ok]
  refine and_congr_right fun hChanges => ?_
  have hDerived := hIntact.foldlM_change hChanges
  rw [hDerived.serialize_eq, Except.ok.injEq]

section Run

variable {directory : Directory} {path planPath output name : String} {bytes result : List UInt8}
  (hBytes : directory.read path = .ok bytes) (hText : planIn directory planPath = .ok plan)
  (hModule : Template.deserialize bytes = .ok module)

include hBytes hText hModule

/-- Once the plan and the module have been read, what remains is to derive the new module and to
write it. -/
theorem computed?_apply :
    computed? directory (.apply path planPath output) = some (output, do
      let derived ← derive plan module
      let patched ← (Template.serialize derived).mapError .encode
      return (patched,
        [.line (s!"Applied {plan.renames.length} rename(s) and {plan.patches.length} " ++
          s!"constant patch(es) -> {output}")])) := by
  rw [computed?, hText, Except.ok_bind, hBytes, Except.mapError_ok, Except.ok_bind, hModule,
    Except.mapError_ok, Except.ok_bind]

theorem computed?_apply_of_derive (hDerive : derive plan module = .ok derived) :
    computed? directory (.apply path planPath output) = some (output, .ok (derived.encode,
      [.line (s!"Applied {plan.renames.length} rename(s) and {plan.patches.length} " ++
        s!"constant patch(es) -> {output}")])) := by
  have hResult := (intact_derive (.of_deserialize hModule) hDerive).serialize_eq
  rw [computed?_apply hBytes hText hModule, hDerive, Except.ok_bind, hResult, Except.mapError_ok,
    Except.ok_bind]
  rfl

/-- A plan is carried out when the changes can be made one after the other, and the new file is
the last of theirs. -/
theorem runIn_apply_of_ok {renames : List (String × String)} {patches : List ConstantPatch}
    (hPlan : Plan.validate renames patches = .ok plan)
    (hShort : Template.ShortBetween plan.edits bytes) (hName : directory.resolve output = .ok name)
    (hUpdates : plan.edits.foldlM Edit.update bytes = .ok result) :
    runIn (.apply path planPath output) directory =
      (⟨[.line (s!"Applied {plan.renames.length} rename(s) and {plan.patches.length} " ++
        s!"constant patch(es) -> {output}")], none⟩, directory.put name result) := by
  obtain ⟨derived, hDerive, hResult⟩ := (serialize_derive_iff hPlan hModule hShort).mpr hUpdates
  obtain ⟨-, rfl⟩ := Template.serialize_eq_ok.mp hResult
  exact runIn_of_computed (computed?_apply_of_derive hBytes hText hModule hDerive) hName

/-- If an update of the files fails, the command fails as well, and writes nothing. -/
theorem runIn_apply_of_error {renames : List (String × String)} {patches : List ConstantPatch}
    (hPlan : Plan.validate renames patches = .ok plan)
    (hShort : Template.ShortBetween plan.edits bytes) {error : Template.Error}
    (hUpdates : plan.edits.foldlM Edit.update bytes = .error error) :
    ∃ failure, runIn (.apply path planPath output) directory = (⟨[], some failure⟩, directory) := by
  have hComputed := @computed?_apply _ _ _ _ _ output _ hBytes hText hModule
  cases hDerive : derive plan module with
  | error failure =>
      rw [hDerive] at hComputed
      exact ⟨failure, runIn_of_failed hComputed⟩
  | ok derived =>
      have hResult := (intact_derive (.of_deserialize hModule) hDerive).serialize_eq
      have hOther := (serialize_derive_iff hPlan hModule hShort).mp ⟨derived, hDerive, hResult⟩
      rw [hUpdates] at hOther
      cases hOther

end Run

/-- Carrying out a plan does the same as making its changes one after the other, each in the
file that the one before has left, as long as the files in between are short enough to be read.
Where one of the changes fails, nothing is written. -/
theorem apply_refines_updates {renames : List (String × String)} {patches : List ConstantPatch}
    {bytes : List UInt8} (hPlan : Plan.validate renames patches = .ok plan)
    (hModule : Template.deserialize bytes = .ok module)
    (hShort : Template.ShortBetween plan.edits bytes) :
    (∀ result,
      (∃ derived, derive plan module = .ok derived ∧ Template.serialize derived = .ok result) ↔
        plan.edits.foldlM Edit.update bytes = .ok result) ∧
    ∀ (directory : Directory) (path planPath output name : String),
      directory.read path = .ok bytes → planIn directory planPath = .ok plan →
      directory.resolve output = .ok name →
        (∀ result, plan.edits.foldlM Edit.update bytes = .ok result →
          runIn (.apply path planPath output) directory =
            (⟨[.line (s!"Applied {plan.renames.length} rename(s) and {plan.patches.length} " ++
              s!"constant patch(es) -> {output}")], none⟩, directory.put name result)) ∧
        ∀ error, plan.edits.foldlM Edit.update bytes = .error error →
          ∃ failure,
            runIn (.apply path planPath output) directory = (⟨[], some failure⟩, directory) := by
  refine ⟨fun result => serialize_derive_iff hPlan hModule hShort, ?_⟩
  intro directory path planPath output name hBytes hText hName
  refine ⟨?_, ?_⟩
  · intro result hUpdates
    exact runIn_apply_of_ok hBytes hText hModule hPlan hShort hName hUpdates
  · intro error hUpdates
    exact runIn_apply_of_error hBytes hText hModule hPlan hShort hUpdates

/-- A plan with a new name and a new constant. -/
def limitPlan : Plan :=
  ⟨[("M", "Limits")], [⟨⟨"U8", [6], [7]⟩, .integer .w8⟩]⟩

def limitPlanText : String :=
  "[renames]\nM = \"Limits\"\n\n[[constants]]\ntype = \"U8\"\nexpected = \"06\"\nnew = \"07\"\n"

/-- A directory with a module and a plan for it. -/
def limitDirectory : Directory :=
  (Directory.put ⟨[]⟩ "p" (Text.bytes limitPlanText)).put "m" Template.limitBytes

/-- The module that the plan derives. -/
def limitsModule : Module :=
  { Template.renamedLimit with constants := #[⟨.integer .w8, [7]⟩] }

theorem contents?_limitDirectory :
    limitDirectory.contents? "m" = some Template.limitBytes ∧
      limitDirectory.contents? "p" = some (Text.bytes limitPlanText) := by
  refine ⟨?_, ?_⟩
  · rw [limitDirectory, Directory.contents?_put, if_pos rfl]
  · rw [limitDirectory, Directory.contents?_put, if_neg (by decide), Directory.contents?_put,
      if_pos rfl]

theorem read_limitDirectory : limitDirectory.read "m" = .ok Template.limitBytes :=
  Directory.read_eq_ok.mpr ⟨"m", rfl, contents?_limitDirectory.1⟩

theorem validate_limitPlan :
    Plan.validate [("M", "Limits")] [⟨"U8", [6], [7]⟩] = .ok limitPlan := rfl

/-- The text of the plan is read line by line: a table of names, and a list of constants with one
entry. -/
theorem parse_limitPlanText : Plan.parse limitPlanText = .ok limitPlan := by
  have hParts : (Toml.parse? limitPlanText >>= Plan.parts?) =
      some ([("M", "Limits")], [⟨"U8", [6], [7]⟩]) := by
    decide +kernel
  rw [Plan.parse, hParts]
  exact validate_limitPlan

theorem planIn_limitDirectory : planIn limitDirectory "p" = .ok limitPlan := by
  have hRead : limitDirectory.read "p" = .ok (Text.bytes limitPlanText) :=
    Directory.read_eq_ok.mpr ⟨"p", rfl, contents?_limitDirectory.2⟩
  exact planIn_of_read limitDirectory hRead parse_limitPlanText

theorem derive_limitPlan : derive limitPlan Template.limitModule = .ok limitsModule := by
  have hReplace : Template.renamedLimit.replaceConstant (.integer .w8) [6] [7] =
      .ok (limitsModule, 0) :=
    Module.replaceConstant_eq_ok.mpr ⟨Module.findConstant?_eq_some.mpr ⟨rfl, by simp⟩, rfl, rfl⟩
  have hRename := Edit.change_rename.mpr Template.rename_limitModule
  have hPatch := @Edit.change_replace _ _ ⟨⟨"U8", [6], [7]⟩, .integer .w8⟩ |>.mpr ⟨0, hReplace⟩
  rw [derive_eq_ok]
  change ((Edit.rename [("M", "Limits")]).change Template.limitModule >>= fun renamed =>
    [Edit.replace ⟨⟨"U8", [6], [7]⟩, .integer .w8⟩].foldlM Edit.change renamed) = _
  rw [hRename, Option.bind_eq_bind, Option.bind_some, List.foldlM_cons, hPatch]
  rfl

/-- The plan is carried out in the very file of the module. -/
theorem apply_refines_updates_limit :
    Plan.validate [("M", "Limits")] [⟨"U8", [6], [7]⟩] = .ok limitPlan ∧
      Template.deserialize Template.limitBytes = .ok Template.limitModule ∧
      limitPlan.edits.foldlM Edit.update Template.limitBytes = .ok limitsModule.encode ∧
      runIn (.apply "m" "p" "m") limitDirectory =
        (⟨[.line "Applied 1 rename(s) and 1 constant patch(es) -> m"], none⟩,
          limitDirectory.put "m" limitsModule.encode) := by
  have hModule := Template.deserialize_limitBytes
  have hIntact := Template.Intact.of_deserialize hModule
  have hShort : Template.ShortBetween limitPlan.edits Template.limitBytes := by
    intro count hPos hCount middle hUpdates
    obtain rfl : 1 = count := Nat.le_antisymm hPos (Nat.le_of_lt_succ hCount)
    obtain ⟨_, hFirst, hLast⟩ := Except.bind_eq_ok.mp hUpdates
    obtain rfl := Except.ok.inj hLast
    obtain ⟨renamed, hChange, rfl⟩ :=
      (@Edit.update_eq_ok _ _ _ (.rename [("M", "Limits")]) trivial hModule).mp hFirst
    have hRename := Edit.change_rename.mp hChange
    obtain rfl := Except.ok.inj (Template.rename_limitModule.symm.trans hRename)
    decide +kernel
  obtain ⟨hSame, hRun⟩ := apply_refines_updates validate_limitPlan hModule hShort
  have hResult := (intact_derive hIntact derive_limitPlan).serialize_eq
  have hUpdates := (hSame _).mp ⟨limitsModule, derive_limitPlan, hResult⟩
  obtain ⟨hDone, -⟩ :=
    hRun limitDirectory "m" "p" "m" "m" read_limitDirectory planIn_limitDirectory rfl
  exact ⟨validate_limitPlan, hModule, hUpdates, hDone _ hUpdates⟩

end Command

end MoveModule
