import MoveModule.Plan
import MoveModule.Proofs.Except
import MoveModule.Proofs.Module.Rename

/-! What holds of a plan that has been checked. The check asks of names, type tags and new values
what the changes themselves ask of them. -/
namespace MoveModule

/-- A constant of a plan is taken if its tag names a type and the new bytes are a value of it. The
expected bytes are not held against the type. -/
theorem ConstantPatch.resolve_eq_ok {index : Nat} {patch : ConstantPatch}
    {planned : PlannedPatch} :
    patch.resolve index = .ok planned ↔ ∃ type, ConstantType.ofTag patch.tag = .ok type ∧
      type.checkValue patch.new = .ok () ∧ ⟨patch, type⟩ = planned := by
  rw [resolve, Except.bind_eq_ok]
  refine exists_congr fun type => ?_
  rw [Except.andThen_eq_ok, Except.mapError_eq_ok, Except.mapError_eq_ok, Except.pure_eq_ok]

namespace Plan

theorem checkRename_eq_ok {rename : String × String} :
    checkRename rename = .ok () ↔ IsName rename.1 ∧ IsName rename.2 := by
  rw [← isIdentifier_iff, ← isIdentifier_iff, ← Bool.and_eq_true, checkRename]
  split
  · next h => exact iff_of_true rfl h
  · next h => exact iff_of_false (by simp) h

variable {renames : List (String × String)} {patches : List ConstantPatch} {plan : Plan}

/-- A plan is taken if there is something in it, all names are valid, and each of its constants is
taken. The plan that comes out has the types of the constants beside what was given. -/
theorem validate_eq_ok :
    validate renames patches = .ok plan ↔
      (renames.isEmpty && patches.isEmpty) = false ∧
        (∀ rename ∈ renames, IsName rename.1 ∧ IsName rename.2) ∧
        ∃ planned, (patches.zipIdx.mapM fun (patch, index) => patch.resolve index) = .ok planned ∧
          ⟨renames, planned⟩ = plan := by
  rw [validate]
  cases hEmpty : renames.isEmpty && patches.isEmpty with
  | true => simp
  | false =>
      rw [if_neg Bool.false_ne_true, eq_self, true_and, Except.andThen_eq_ok, Except.forM_eq_ok,
        Except.bind_eq_ok]
      simp only [checkRename_eq_ok, Except.pure_eq_ok]

/-- The new names of a checked plan are names. -/
theorem isName_of_validate (h : validate renames patches = .ok plan) :
    ∀ pair ∈ plan.renames, IsName pair.2 := by
  obtain ⟨-, hNames, _, -, rfl⟩ := validate_eq_ok.mp h
  intro pair hPair
  exact (hNames pair hPair).2

/-- The type of a planned patch is the one that its tag names, and the new bytes are a value of
it. -/
theorem tag_of_validate (h : validate renames patches = .ok plan) :
    ∀ patch ∈ plan.patches, ConstantType.ofTag patch.tag = .ok patch.type ∧
      patch.type.checkValue patch.new = .ok () := by
  obtain ⟨-, -, planned, hPlanned, rfl⟩ := validate_eq_ok.mp h
  intro patch hPatch
  obtain ⟨_, -, hResolve⟩ := Except.exists_of_mem_mapM hPlanned patch hPatch
  obtain ⟨type, hType, hValue, rfl⟩ := ConstantPatch.resolve_eq_ok.mp hResolve
  exact ⟨hType, hValue⟩

end Plan

end MoveModule
