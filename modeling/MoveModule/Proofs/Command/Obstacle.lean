import MoveModule.Proofs.Command.Apply
import MoveModule.Proofs.Template.Commute

/-! What can be in the way of a checked plan. The check asks of a plan all that the changes will
ask of it, so that they can only fail for what is in the module: a name would be there twice, or a
constant is not there. -/
namespace MoveModule.Command

/-- What is in the way of a plan in a module, with the failure that it leads to. -/
inductive Obstacle (plan : Plan) (module : Module) : Failure → Prop
  /-- A name becomes one that an earlier name is or has become. -/
  | repeatedName {name : Identifier} (hSome : plan.renames ≠ [])
      (hName : module.Repeats plan.renames name) :
      Obstacle plan module (.renameStep (.duplicateIdentifier name))
  /-- A constant is not there when its turn comes. It may have been there before. -/
  | missingConstant {earlier later : List PlannedPatch} {patch : PlannedPatch} {current : Module}
      (hPatches : plan.patches = earlier ++ patch :: later)
      (hEarlier : derive { plan with patches := earlier } module = .ok current)
      (hMissing : patch.before ∉ current.constants.toList) :
      Obstacle plan module
        (.patchStep earlier.length (.constantNotFound patch.type patch.expected))

section

variable {plan : Plan} {module current : Module} {failure : Failure}

theorem renameStep_eq_error (hNames : ∀ pair ∈ plan.renames, IsName pair.2) :
    renameStep plan module = .error failure ↔ plan.renames ≠ [] ∧
      ∃ name, module.Repeats plan.renames name ∧
        .renameStep (.duplicateIdentifier name) = failure := by
  rw [renameStep]
  split
  -- Without new names the module is not looked at.
  · next hNone =>
      rw [List.isEmpty_iff] at hNone
      exact iff_of_false (by simp) (fun h => h.1 hNone)
  · next hSome =>
      rw [List.isEmpty_iff] at hSome
      rw [Except.mapError_eq_error]
      simp only [Module.rename_eq_error hNames]
      constructor
      · rintro ⟨_, ⟨name, hRepeats, rfl⟩, rfl⟩
        exact ⟨hSome, name, hRepeats, rfl⟩
      · rintro ⟨-, name, hRepeats, rfl⟩
        exact ⟨_, ⟨name, hRepeats, rfl⟩, rfl⟩

/-- If the new bytes are a value of the type, nothing but the constant can be missing. -/
theorem patchStep_eq_error {patch : PlannedPatch} {step : Nat}
    (hValue : patch.type.checkValue patch.new = .ok ()) :
    patchStep current (patch, step) = .error failure ↔
      patch.before ∉ current.constants.toList ∧
        .patchStep step (.constantNotFound patch.type patch.expected) = failure := by
  by_cases hMember : patch.before ∈ current.constants.toList
  · obtain ⟨earlier, later, hSplit⟩ := Module.exists_splitsAt hMember
    have hStep : patchStep current (patch, step) =
        .ok (current.withConstants (earlier ++ patch.after :: later)) := by
      rw [patchStep, hSplit.replaceConstant_of_ok hValue]
      rfl
    rw [hStep]
    exact iff_of_false (by simp) (fun h => h.1 hMember)
  · have hStep : patchStep current (patch, step) =
        .error (.patchStep step (.constantNotFound patch.type patch.expected)) := by
      rw [patchStep, Module.replaceConstant_of_notMem hMember]
      rfl
    rw [hStep, Except.error.injEq]
    exact (and_iff_right hMember).symm

/-- The first patch whose constant is missing ends the run with its number. -/
theorem foldlM_patchStep_eq_error {patches : List PlannedPatch}
    (hValues : ∀ patch ∈ patches, patch.type.checkValue patch.new = .ok ()) :
    patches.zipIdx.foldlM patchStep module = .error failure ↔ ∃ earlier patch later current,
      patches = earlier ++ patch :: later ∧
      earlier.zipIdx.foldlM patchStep module = .ok current ∧
      patch.before ∉ current.constants.toList ∧
      .patchStep earlier.length (.constantNotFound patch.type patch.expected) = failure := by
  rw [Except.foldlM_eq_error]
  constructor
  · intro h
    obtain ⟨_, _, _, current, hSplit, hEarlier, hStep⟩ := h
    obtain ⟨earlier, _, rfl, rfl, hRest⟩ := List.zipIdx_eq_append_iff.mp hSplit
    obtain ⟨patch, later, rfl, rfl, -⟩ := List.zipIdx_eq_cons_iff.mp hRest.symm
    -- Steps are numbered from zero, so the number of a step says how many came before it.
    rw [patchStep_eq_error (hValues patch (by simp)), Nat.zero_add] at hStep
    exact ⟨earlier, patch, later, current, rfl, hEarlier, hStep⟩
  · intro h
    obtain ⟨earlier, patch, later, current, rfl, hEarlier, hStep⟩ := h
    refine ⟨earlier.zipIdx, (patch, earlier.length), later.zipIdx (earlier.length + 1), current, ?_,
      hEarlier, (patchStep_eq_error (hValues patch (by simp))).mpr hStep⟩
    rw [List.zipIdx_append, List.zipIdx_cons, Nat.zero_add]

theorem derive_eq_error (hNames : ∀ pair ∈ plan.renames, IsName pair.2)
    (hValues : ∀ patch ∈ plan.patches, patch.type.checkValue patch.new = .ok ()) :
    derive plan module = .error failure ↔ Obstacle plan module failure := by
  rw [derive, Except.bind_eq_error, renameStep_eq_error hNames]
  simp only [foldlM_patchStep_eq_error hValues]
  constructor
  · intro h
    rcases h with ⟨hSome, name, hName, rfl⟩ | ⟨renamed, hRename, hPatches⟩
    · exact .repeatedName hSome hName
    · obtain ⟨earlier, patch, later, current, hPlan, hEarlier, hMissing, rfl⟩ := hPatches
      exact .missingConstant hPlan (Except.bind_eq_ok.mpr ⟨renamed, hRename, hEarlier⟩) hMissing
  · intro h
    cases h with
    | repeatedName hSome hName => exact .inl ⟨hSome, _, hName, rfl⟩
    | missingConstant hPlan hEarlier hMissing =>
        obtain ⟨renamed, hRename, hEarlier⟩ := Except.bind_eq_ok.mp hEarlier
        exact .inr ⟨renamed, hRename, _, _, _, _, hPlan, hEarlier, hMissing, rfl⟩

/-- What a run of a checked plan ends with, if it fails after all files have been read. -/
theorem failure_apply_iff {directory : Directory} {path planPath output : String}
    {bytes : List UInt8} (hBytes : directory.read path = .ok bytes)
    (hText : planIn directory planPath = .ok plan)
    (hModule : Template.deserialize bytes = .ok module) :
    (runIn (.apply path planPath output) directory).1.failure = some failure ↔
      derive plan module = .error failure ∨ ∃ derived error,
        derive plan module = .ok derived ∧
        directory.write output derived.encode = .error error ∧
        .writeModule output error = failure := by
  cases hDerive : derive plan module with
  | error given =>
      have hComputed := @computed?_apply _ _ _ _ _ output _ hBytes hText hModule
      rw [hDerive] at hComputed
      rw [runIn_of_failed hComputed]
      simp
  | ok derived =>
      have hComputed := @computed?_apply_of_derive _ _ _ _ _ _ output _ hBytes hText hModule hDerive
      rw [runIn_eq_writeLast hComputed, Action.writeLast]
      cases hWrite : directory.write output derived.encode with
      | error error => simp [Outcome.failure_ofResult_error, hWrite]
      | ok after => simp [Outcome.failure_ofResult_ok, hWrite]

end

/-- Once a plan is checked, names are refused only if one would be there twice, and a constant only
if it is not there. These are all the obstacles that there are, so where there is none the new
module is written, if the file can be. -/
theorem checked_plan_fails_for_obstacle {renames : List (String × String)}
    {patches : List ConstantPatch} {plan : Plan} {bytes : List UInt8} {module : Module}
    (hPlan : Plan.validate renames patches = .ok plan)
    (hModule : Template.deserialize bytes = .ok module) :
    (∀ failure, renameStep plan module = .error failure →
      ∃ name, failure = .renameStep (.duplicateIdentifier name)) ∧
    (∀ patch ∈ plan.patches, ConstantType.ofTag patch.tag = .ok patch.type ∧
      patch.type.checkValue patch.new = .ok () ∧
      ∀ current step failure, patchStep current (patch, step) = .error failure ↔
        patch.before ∉ current.constants.toList ∧
          .patchStep step (.constantNotFound patch.type patch.expected) = failure) ∧
    (∀ failure, derive plan module = .error failure ↔ Obstacle plan module failure) ∧
    (∀ derived, derive plan module = .ok derived →
      Template.serialize derived = .ok derived.encode) ∧
    ∀ (directory : Directory) (path planPath output : String) (failure : Failure),
      directory.read path = .ok bytes → planIn directory planPath = .ok plan →
        ((runIn (.apply path planPath output) directory).1.failure = some failure ↔
          Obstacle plan module failure ∨ ∃ derived error, derive plan module = .ok derived ∧
            directory.write output derived.encode = .error error ∧
            .writeModule output error = failure) := by
  have hNames := Plan.isName_of_validate hPlan
  have hPatches := Plan.tag_of_validate hPlan
  have hDerive (failure : Failure) :
      derive plan module = .error failure ↔ Obstacle plan module failure :=
    derive_eq_error hNames fun patch hPatch => (hPatches patch hPatch).2
  refine ⟨?_, ?_, hDerive, ?_, ?_⟩
  · intro failure hFailure
    obtain ⟨-, name, -, hName⟩ := (renameStep_eq_error hNames).mp hFailure
    exact ⟨name, hName.symm⟩
  · intro patch hPatch
    obtain ⟨hType, hValue⟩ := hPatches patch hPatch
    exact ⟨hType, hValue, fun current step failure => patchStep_eq_error hValue⟩
  · intro derived hDerived
    exact (intact_derive (.of_deserialize hModule) hDerived).serialize_eq
  · intro directory path planPath output failure hBytes hText
    rw [failure_apply_iff hBytes hText hModule, hDerive]

/-- A plan is not carried out a second time in the same file. The names are what they should
become, and the constant has its new bytes. -/
theorem checked_plan_fails_for_obstacle_again :
    let failure : Failure := .patchStep 0 (.constantNotFound (.integer .w8) [6])
    Plan.validate [("M", "Limits")] [⟨"U8", [6], [7]⟩] = .ok limitPlan ∧
      Template.deserialize limitsModule.encode = .ok limitsModule ∧
      derive limitPlan limitsModule = .error failure ∧
      (runIn (.apply "m" "p" "m") (limitDirectory.put "m" limitsModule.encode)).1.failure =
        some failure := by
  intro failure
  have hIntact := intact_derive (.of_deserialize Template.deserialize_limitBytes) derive_limitPlan
  have hModule := hIntact.deserialize_encode (by decide +kernel)
  obtain ⟨-, -, hDerive, -, hRun⟩ := checked_plan_fails_for_obstacle validate_limitPlan hModule
  have hChanges : Renaming.ofPairs limitPlan.renames = .ok [("M", ⟨"Limits", rfl⟩)] := rfl
  have hRename : limitsModule.rename limitPlan.renames = .ok limitsModule :=
    Module.rename_of_nodup hChanges (by decide)
  have hNames : derive { limitPlan with patches := [] } limitsModule = .ok limitsModule := by
    change (limitsModule.rename limitPlan.renames).mapError Failure.renameStep >>= _ = _
    rw [hRename]
    rfl
  have hObstacle : Obstacle limitPlan limitsModule failure :=
    .missingConstant rfl hNames (by decide)
  have hBytes : (limitDirectory.put "m" limitsModule.encode).read "m" = .ok limitsModule.encode :=
    Directory.read_eq_ok.mpr ⟨"m", rfl, by rw [Directory.contents?_put, if_pos rfl]⟩
  have hText : planIn (limitDirectory.put "m" limitsModule.encode) "p" = .ok limitPlan := by
    refine planIn_of_read _ (Directory.read_eq_ok.mpr ⟨"p", rfl, ?_⟩) parse_limitPlanText
    rw [Directory.contents?_put, if_neg (by decide)]
    exact contents?_limitDirectory.2
  refine ⟨validate_limitPlan, hModule, (hDerive failure).mpr hObstacle, ?_⟩
  exact (hRun _ "m" "p" "m" failure hBytes hText).mpr (.inl hObstacle)

end MoveModule.Command
