import MoveModule.Proofs.Module.Edit

/-! A change of a constant as a compare-and-swap. The constants are searched for the first one with
the expected type and bytes. If there is none, nothing else is looked at. Otherwise this constant
alone gets the new bytes, if they are a value of its type. -/
namespace MoveModule.Module

/-- The module with these constants. -/
def withConstants (module : Module) (values : List Constant) : Module :=
  { module with constants := values.toArray }

@[simp]
theorem toList_constants_withConstants (module : Module) (values : List Constant) :
    (module.withConstants values).constants.toList = values := rfl

@[simp]
theorem withConstants_withConstants (module : Module) (values others : List Constant) :
    (module.withConstants values).withConstants others = module.withConstants others := rfl

@[simp]
theorem withConstants_toList (module : Module) :
    module.withConstants module.constants.toList = module := rfl

/-- Constants are the only part that was put in place, so the module is the same if they are. -/
theorem withConstants_eq_self {module : Module} {values : List Constant} :
    module.withConstants values = module ↔ values = module.constants.toList := by
  constructor
  · intro h
    rw [← toList_constants_withConstants module values, h]
  · rintro rfl
    exact module.withConstants_toList

/-- The constants of a module fall apart at the first one that is this one. -/
structure SplitsAt (module : Module) (constant : Constant) (earlier later : List Constant) :
    Prop where
  constants : module.constants.toList = earlier ++ constant :: later
  first : constant ∉ earlier

section

variable {module result : Module} {type : ConstantType}
  {value expected new : List UInt8} {earlier later : List Constant} {error : ConstantError}

/-- A constant that is there somewhere is there for a first time. -/
theorem exists_splitsAt {constant : Constant} (h : constant ∈ module.constants.toList) :
    ∃ earlier later, module.SplitsAt constant earlier later := by
  obtain ⟨earlier, later, hConstants, hFirst⟩ := List.eq_append_cons_of_mem h
  exact ⟨earlier, later, hConstants, hFirst⟩

/-- Nothing is found if no entry has both the type and the bytes. -/
theorem findConstant?_eq_none (h : ⟨type, value⟩ ∉ module.constants.toList) :
    module.findConstant? type value = none := by
  cases hFound : module.findConstant? type value with
  | none => rfl
  | some place =>
      obtain ⟨hPlace, -⟩ := findConstant?_eq_some.mp hFound
      exact absurd (Array.mem_toList_iff.mpr (Array.mem_of_getElem? hPlace)) h

/-- A constant is found behind those that are different. -/
theorem SplitsAt.findConstant?_eq (h : module.SplitsAt ⟨type, value⟩ earlier later) :
    module.findConstant? type value = some earlier.length := by
  refine findConstant?_eq_some.mpr ⟨?_, ?_⟩
  · rw [← Array.getElem?_toList, h.constants, List.getElem?_append_right (Nat.le_refl _),
      Nat.sub_self, List.getElem?_cons_zero]
  · intro index hIndex hSame
    rw [← Array.getElem?_toList, h.constants, List.getElem?_append_left hIndex] at hSame
    exact h.first (List.mem_of_getElem? hSame)

/-- If the constant is not there, this is the error, whatever the new value is. -/
theorem replaceConstant_of_notMem (h : ⟨type, expected⟩ ∉ module.constants.toList) :
    module.replaceConstant type expected new = .error (.constantNotFound type expected) := by
  simp only [replaceConstant, findConstant?_eq_none h]

/-- If the constant is there, a new value that is none of its type is refused with the error of the
check. -/
theorem SplitsAt.replaceConstant_of_error (h : module.SplitsAt ⟨type, expected⟩ earlier later)
    (hNew : type.checkValue new = .error error) :
    module.replaceConstant type expected new = .error (.constant error) := by
  simp only [replaceConstant, h.findConstant?_eq, hNew]

/-- The first of the equal constants gets the new value, and those behind it keep the old one. -/
theorem SplitsAt.replaceConstant_of_ok (h : module.SplitsAt ⟨type, expected⟩ earlier later)
    (hNew : type.checkValue new = .ok ()) :
    module.replaceConstant type expected new =
      .ok (module.withConstants (earlier ++ ⟨type, new⟩ :: later), earlier.length) := by
  refine replaceConstant_eq_ok.mpr ⟨h.findConstant?_eq, hNew, ?_⟩
  have hConstants : (module.constants.modify earlier.length fun constant =>
      { constant with value := new }) = (earlier ++ ⟨type, new⟩ :: later).toArray := by
    apply Array.toList_inj.mp
    rw [Array.toList_modify, h.constants]
    exact List.modifyTailIdx_add _ 0 earlier _
  rw [hConstants, withConstants]

/-- A change of a constant without its place: the first of the constants that are the expected one
is replaced. -/
theorem exists_replaceConstant_eq_ok :
    (∃ place, module.replaceConstant type expected new = .ok (result, place)) ↔
      (⟨type, expected⟩ ∈ module.constants.toList ∧ type.checkValue new = .ok ()) ∧
        module.withConstants (module.constants.toList.replace ⟨type, expected⟩ ⟨type, new⟩) =
          result := by
  by_cases hMember : ⟨type, expected⟩ ∈ module.constants.toList
  · obtain ⟨earlier, later, hSplit⟩ := exists_splitsAt hMember
    cases hNew : type.checkValue new with
    | error error => simp [hSplit.replaceConstant_of_error hNew]
    | ok _ =>
        have hReplaced : module.constants.toList.replace ⟨type, expected⟩ ⟨type, new⟩ =
            earlier ++ ⟨type, new⟩ :: later := by
          rw [hSplit.constants, List.replace_append_right hSplit.first, List.replace_cons_self]
        simp [hSplit.replaceConstant_of_ok hNew, hReplaced, hMember]
  · simp [replaceConstant_of_notMem hMember, hMember]

/-- Where the old bytes are expected again, they are found at the constant that was changed, unless
one before it has had the new bytes all along. Then this one is changed instead, so that there are
two differences. -/
theorem SplitsAt.replaceConstant_back (h : module.SplitsAt ⟨type, expected⟩ earlier later)
    (hExpected : type.checkValue expected = .ok ()) (new : List UInt8) :
    ∃ restored place,
      (module.withConstants (earlier ++ ⟨type, new⟩ :: later)).replaceConstant type new expected =
        .ok (restored, place) ∧
      (restored = module ↔ ⟨type, new⟩ ∉ earlier) := by
  by_cases hEarlier : ⟨type, new⟩ ∈ earlier
  · obtain ⟨front, back, rfl, hFront⟩ := List.eq_append_cons_of_mem hEarlier
    have hSplit : (module.withConstants
        ((front ++ ⟨type, new⟩ :: back) ++ ⟨type, new⟩ :: later)).SplitsAt ⟨type, new⟩ front
          (back ++ ⟨type, new⟩ :: later) := ⟨by simp, hFront⟩
    refine ⟨_, _, hSplit.replaceConstant_of_ok hExpected, ?_⟩
    rw [withConstants_withConstants, withConstants_eq_self, h.constants]
    refine iff_of_false ?_ (not_not_intro hEarlier)
    intro hSame
    rw [List.append_assoc, List.append_cancel_left_eq, List.cons_append, List.cons.injEq] at hSame
    exact h.first (hSame.1 ▸ hEarlier)
  · have hSplit : (module.withConstants (earlier ++ ⟨type, new⟩ :: later)).SplitsAt ⟨type, new⟩
        earlier later := ⟨rfl, hEarlier⟩
    refine ⟨_, _, hSplit.replaceConstant_of_ok hExpected, ?_⟩
    rw [withConstants_withConstants, withConstants_eq_self, h.constants]
    exact iff_of_true rfl hEarlier

end

/-- A constant is changed if it is there, and the first of several alone is. That there is none is
said before the new bytes are looked at. What a change of a sound module did is undone by the
change the other way round, except where the new bytes stood in front already. -/
theorem replaceConstant_swaps_first (module : Module) (type : ConstantType)
    (expected new : List UInt8) :
    (⟨type, expected⟩ ∉ module.constants.toList →
      module.replaceConstant type expected new = .error (.constantNotFound type expected)) ∧
    ∀ earlier later, module.constants.toList = earlier ++ ⟨type, expected⟩ :: later →
      ⟨type, expected⟩ ∉ earlier →
        (∀ error, type.checkValue new = .error error →
          module.replaceConstant type expected new = .error (.constant error)) ∧
        (type.checkValue new = .ok () →
          module.replaceConstant type expected new =
            .ok (module.withConstants (earlier ++ ⟨type, new⟩ :: later), earlier.length) ∧
          (module.verify = .ok () → ∃ restored place,
            (module.withConstants (earlier ++ ⟨type, new⟩ :: later)).replaceConstant type new
              expected = .ok (restored, place) ∧
            (restored = module ↔ ⟨type, new⟩ ∉ earlier))) := by
  refine ⟨replaceConstant_of_notMem, ?_⟩
  intro earlier later hConstants hFirst
  have hSplit : module.SplitsAt ⟨type, expected⟩ earlier later := ⟨hConstants, hFirst⟩
  refine ⟨fun error hError => hSplit.replaceConstant_of_error hError, ?_⟩
  intro hNew
  refine ⟨hSplit.replaceConstant_of_ok hNew, ?_⟩
  intro hVerify
  -- The old bytes are those of a constant, and all constants of the module have passed the check.
  have hOld : ⟨type, expected⟩ ∈ module.constants.toList := by simp [hConstants]
  have hExpected := ConstantType.checkValue_eq_ok.mpr ((sound_of_verify hVerify).constants _ hOld)
  exact hSplit.replaceConstant_back hExpected new

/-- A module with three constants, the last two of which are the same. -/
def repeatModule : Module :=
  bareModule.withConstants
    [⟨.integer .w8, [7]⟩, ⟨.integer .w8, [6]⟩, ⟨.integer .w8, [6]⟩]

/-- The first 6 is changed. A 9 in its place can be changed back, and a 7 cannot, since the constant
before it is changed instead. -/
theorem replaceConstant_swaps_first_repeat :
    repeatModule.verify = .ok () ∧
      repeatModule.replaceConstant (.integer .w8) [6] [9] = .ok (repeatModule.withConstants
        [⟨.integer .w8, [7]⟩, ⟨.integer .w8, [9]⟩, ⟨.integer .w8, [6]⟩], 1) ∧
      (∃ place, (repeatModule.withConstants
        [⟨.integer .w8, [7]⟩, ⟨.integer .w8, [9]⟩, ⟨.integer .w8, [6]⟩]).replaceConstant
          (.integer .w8) [9] [6] = .ok (repeatModule, place)) ∧
      (∃ restored place, (repeatModule.withConstants
        [⟨.integer .w8, [7]⟩, ⟨.integer .w8, [7]⟩, ⟨.integer .w8, [6]⟩]).replaceConstant
          (.integer .w8) [7] [6] = .ok (restored, place) ∧ restored ≠ repeatModule) ∧
      repeatModule.replaceConstant (.integer .w8) [6] [3, 3] =
        .error (.constant (.lengthMismatch (.integer .w8) 1 2)) ∧
      repeatModule.replaceConstant (.integer .w8) [5] [3, 3] =
        .error (.constantNotFound (.integer .w8) [5]) := by
  have hVerify : repeatModule.verify = .ok () := rfl
  obtain ⟨-, hNine⟩ := replaceConstant_swaps_first repeatModule (.integer .w8) [6] [9]
  obtain ⟨-, hNine⟩ := hNine [⟨.integer .w8, [7]⟩] [⟨.integer .w8, [6]⟩] rfl (by decide)
  obtain ⟨hDone, hBack⟩ := hNine rfl
  obtain ⟨restored, place, hRestored, hSame⟩ := hBack hVerify
  obtain rfl := hSame.mpr (by decide)
  obtain ⟨-, hSeven⟩ := replaceConstant_swaps_first repeatModule (.integer .w8) [6] [7]
  obtain ⟨-, hSeven⟩ := hSeven [⟨.integer .w8, [7]⟩] [⟨.integer .w8, [6]⟩] rfl (by decide)
  obtain ⟨-, hElsewhere⟩ := hSeven rfl
  obtain ⟨changed, other, hChanged, hDifferent⟩ := hElsewhere hVerify
  obtain ⟨-, hLong⟩ := replaceConstant_swaps_first repeatModule (.integer .w8) [6] [3, 3]
  obtain ⟨hLong, -⟩ := hLong [⟨.integer .w8, [7]⟩] [⟨.integer .w8, [6]⟩] rfl (by decide)
  obtain ⟨hAbsent, -⟩ := replaceConstant_swaps_first repeatModule (.integer .w8) [5] [3, 3]
  refine ⟨hVerify, hDone, ⟨place, hRestored⟩, ⟨changed, other, hChanged, ?_⟩, hLong _ rfl, ?_⟩
  · exact fun hEqual => hDifferent.mp hEqual (by decide)
  · exact hAbsent (by decide)

end MoveModule.Module
