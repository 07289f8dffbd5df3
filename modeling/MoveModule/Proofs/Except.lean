/-! When a row of steps that may fail succeeds: each step has to. -/
namespace MoveModule.Except

variable {ε α β : Type}

/-- Two steps succeed if the first one does and the second one does with its value. -/
@[simp]
theorem bind_eq_ok {first : Except ε α} {second : α → Except ε β} {value : β} :
    (first >>= second) = .ok value ↔ ∃ part, first = .ok part ∧ second part = .ok value := by
  cases first <;> simp [bind, Except.bind]

/-- A step that only passes or fails stands in front of another. -/
@[simp high]
theorem andThen_eq_ok {first : Except ε Unit} {second : Unit → Except ε β} {value : β} :
    (first >>= second) = .ok value ↔ first = .ok () ∧ second () = .ok value := by
  cases first <;> simp [bind, Except.bind]

/-- A row of two steps fails in the first or in the second. -/
theorem bind_eq_error {first : Except ε α} {second : α → Except ε β} {error : ε} :
    (first >>= second) = .error error ↔
      first = .error error ∨ ∃ part, first = .ok part ∧ second part = .error error := by
  cases first <;> simp [bind, Except.bind]

theorem ok_bind {value : α} {next : α → Except ε β} : (.ok value >>= next) = next value := rfl

theorem mapError_ok {δ : Type} {f : ε → δ} {value : α} :
    (.ok value : Except ε α).mapError f = .ok value := rfl

theorem mapError_error {δ : Type} {f : ε → δ} {error : ε} :
    (.error error : Except ε α).mapError f = .error (f error) := rfl

@[simp]
theorem pure_eq_ok {given value : α} : (pure given : Except ε α) = .ok value ↔ given = value := by
  simp [pure, Except.pure]

/-- What an error is told as has no influence on success. -/
@[simp]
theorem mapError_eq_ok {δ : Type} {f : ε → δ} {step : Except ε α} {value : α} :
    step.mapError f = .ok value ↔ step = .ok value := by
  cases step with
  | error error =>
      change Except.error (f error) = _ ↔ _
      simp
  | ok given =>
      change (Except.ok given : Except δ α) = _ ↔ _
      simp

/-- An error in its new words comes from one in the old words. -/
theorem mapError_eq_error {δ : Type} {f : ε → δ} {step : Except ε α} {error : δ} :
    step.mapError f = .error error ↔ ∃ given, step = .error given ∧ f given = error := by
  cases step with
  | error given => rw [mapError_error]; simp
  | ok value => rw [mapError_ok]; simp

theorem mapError_id {step : Except ε α} : step.mapError id = step := by
  cases step <;> rfl

/-- Steps for all items succeed together when each of them does. -/
theorem forM_eq_ok {step : α → Except ε Unit} {items : List α} :
    items.forM step = .ok () ↔ ∀ item ∈ items, step item = .ok () := by
  induction items with
  | nil =>
      change (pure () : Except ε Unit) = _ ↔ _
      simp
  | cons item rest ih =>
      change (step item >>= fun _ => rest.forM step) = _ ↔ _
      rw [andThen_eq_ok, List.forall_mem_cons, ih]

/-- What steps give for a list comes from its items. -/
theorem exists_of_mem_mapM {step : α → Except ε β} {items : List α} {results : List β}
    (h : items.mapM step = .ok results) :
    ∀ result ∈ results, ∃ item ∈ items, step item = .ok result := by
  induction items generalizing results with
  | nil =>
      rw [List.mapM_nil, pure_eq_ok] at h
      simp [← h]
  | cons item rest ih =>
      simp only [List.mapM_cons, bind_eq_ok, pure_eq_ok] at h
      obtain ⟨first, hFirst, later, hLater, rfl⟩ := h
      rw [List.forall_mem_cons]
      refine ⟨⟨item, List.mem_cons_self, hFirst⟩, ?_⟩
      intro result hResult
      obtain ⟨other, hOther, hStep⟩ := ih hLater result hResult
      exact ⟨other, List.mem_cons_of_mem item hOther, hStep⟩

/-- A row of steps fails in the first one that does. -/
theorem foldlM_eq_error {step : β → α → Except ε β} {items : List α} {state : β} {error : ε} :
    items.foldlM step state = .error error ↔ ∃ earlier item later middle,
      items = earlier ++ item :: later ∧ earlier.foldlM step state = .ok middle ∧
        step middle item = .error error := by
  induction items generalizing state with
  | nil => simp [pure, Except.pure]
  | cons item rest ih =>
      rw [List.foldlM_cons, bind_eq_error]
      constructor
      · intro h
        rcases h with hItem | ⟨next, hItem, hRest⟩
        · exact ⟨[], item, rest, state, rfl, rfl, hItem⟩
        · obtain ⟨earlier, other, later, middle, rfl, hEarlier, hOther⟩ := ih.mp hRest
          refine ⟨item :: earlier, other, later, middle, rfl, ?_, hOther⟩
          rw [List.foldlM_cons, hItem, hEarlier.symm]
          rfl
      · intro h
        obtain ⟨earlier, other, later, middle, hItems, hEarlier, hOther⟩ := h
        cases earlier with
        | nil =>
            obtain ⟨rfl, rfl⟩ := List.cons.inj hItems
            rw [List.foldlM_nil, pure_eq_ok] at hEarlier
            exact .inl (hEarlier ▸ hOther)
        | cons first earlier =>
            obtain ⟨rfl, rfl⟩ := List.cons.inj hItems
            rw [List.foldlM_cons, bind_eq_ok] at hEarlier
            obtain ⟨next, hItem, hEarlier⟩ := hEarlier
            exact .inr ⟨next, hItem, ih.mpr ⟨earlier, other, later, middle, rfl, hEarlier, hOther⟩⟩

/-- Without its errors a step gives the same value. -/
theorem toOption_eq_some {step : Except ε α} {value : α} :
    step.toOption = some value ↔ step = .ok value := by
  cases step <;> simp [Except.toOption]

end MoveModule.Except
