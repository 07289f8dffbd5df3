import MoveModule.Module.Layout

/-! The order in which tables are written. It names every table that is not empty, and
none of them twice. An order with these two properties is kept as it is. -/
namespace MoveModule.Module

section AddKinds

variable {wanted : TableKind → Bool} {order kinds : List TableKind}

/-- The kinds that are added are those that are wanted and not there, each where it occurs
first. -/
theorem addKinds_eq_append_eraseDups : addKinds wanted order kinds =
    order ++ (kinds.filter fun kind => wanted kind && !order.contains kind).eraseDups := by
  induction kinds generalizing order with
  | nil => simp [addKinds]
  | cons first rest ih =>
      change addKinds wanted (if _ then _ else _) rest = _
      rw [ih]
      by_cases hAdded : (wanted first && !order.contains first) = true
      · have hLater : rest.filter (fun kind => wanted kind && !(order ++ [first]).contains kind) =
            (rest.filter fun kind => wanted kind && !order.contains kind).filter (!· == first) := by
          rw [List.filter_filter]
          apply List.filter_congr
          intro kind _
          grind
        rw [if_pos hAdded, hLater, List.filter_cons, if_pos hAdded, List.eraseDups_cons,
          List.append_assoc, List.singleton_append]
      · rw [if_neg hAdded, List.filter_cons, if_neg hAdded]

theorem mem_addKinds {kind : TableKind} :
    kind ∈ addKinds wanted order kinds ↔ kind ∈ order ∨ kind ∈ kinds ∧ wanted kind = true := by
  rw [addKinds_eq_append_eraseDups, List.mem_append, List.mem_eraseDups, List.mem_filter]
  grind

theorem nodup_addKinds (hOrder : order.Nodup) : (addKinds wanted order kinds).Nodup := by
  induction kinds generalizing order with
  | nil => exact hOrder
  | cons first rest ih =>
      apply ih
      grind [List.nodup_append]

/-- Kinds that are already there are not added. -/
theorem addKinds_eq_self (h : ∀ kind ∈ kinds, wanted kind = true → kind ∈ order) :
    addKinds wanted order kinds = order := by
  have hNone : (kinds.filter fun kind => wanted kind && !order.contains kind) = [] := by
    rw [List.filter_eq_nil_iff]
    grind
  rw [addKinds_eq_append_eraseDups, hNone, List.eraseDups_nil, List.append_nil]

/-- Kinds of which none is there are all added. -/
theorem addKinds_eq_append (hNew : (order ++ kinds).Nodup)
    (hWanted : ∀ kind ∈ kinds, wanted kind = true) :
    addKinds wanted order kinds = order ++ kinds := by
  induction kinds generalizing order with
  | nil => simp [addKinds]
  | cons first rest ih =>
      obtain ⟨hFirst, hRest⟩ := List.forall_mem_cons.mp hWanted
      have hAdded : (if wanted first && !order.contains first then order ++ [first] else order) =
          order ++ [first] := by
        grind [List.nodup_append]
      change addKinds wanted (if _ then _ else _) rest = _
      rw [hAdded, ih (by simpa using hNew) hRest, List.append_assoc, List.singleton_append]

/-- A repeat is left out. -/
theorem addKinds_nil_eq_eraseDups : addKinds (fun _ => true) [] kinds = kinds.eraseDups := by
  have hAll : (kinds.filter fun kind => true && !([] : List TableKind).contains kind) = kinds :=
    List.filter_eq_self.mpr fun _ _ => rfl
  rw [addKinds_eq_append_eraseDups, hAll, List.nil_append]

/-- Kinds none of which occurs again are all kept. -/
theorem eraseDups_eq_self (h : kinds.Nodup) : kinds.eraseDups = kinds := by
  rw [← addKinds_nil_eq_eraseDups]
  exact addKinds_eq_append h fun _ _ => rfl

end AddKinds

/-- First the recorded tables, each where its name occurs first, and then the others that are not
empty. -/
theorem emissionOrder_eq_append (module : Module) : module.emissionOrder =
    module.tableOrder.eraseDups ++
      TableKind.canonicalOrder.filter fun kind =>
        0 < module.size kind ∧ kind ∉ module.tableOrder := by
  have hCanonical : TableKind.canonicalOrder.Nodup := by decide
  rw [emissionOrder, addKinds_nil_eq_eraseDups, addKinds_eq_append_eraseDups,
    eraseDups_eq_self (hCanonical.filter _)]
  simp [List.mem_eraseDups]

/-- A table is written if the order names it or if it has entries. -/
theorem mem_emissionOrder {module : Module} {kind : TableKind} :
    kind ∈ module.emissionOrder ↔ kind ∈ module.tableOrder ∨ 0 < module.size kind := by
  simp [emissionOrder, mem_addKinds, TableKind.mem_canonicalOrder]

/-- A table that is not written is empty. -/
theorem entries_eq_empty {module : Module} {kind : TableKind} (h : kind ∉ module.emissionOrder) :
    module.entries kind = #[] := by
  rw [mem_emissionOrder, not_or, Nat.not_lt] at h
  exact Array.eq_empty_of_size_eq_zero (Nat.le_zero.mp h.2)

/-- No table is written twice, even if the order names it twice. -/
theorem nodup_emissionOrder (module : Module) : module.emissionOrder.Nodup :=
  nodup_addKinds (nodup_addKinds List.nodup_nil)

/-- A recorded order that leaves nothing to be said is the order of writing. -/
theorem emissionOrder_eq_tableOrder {module : Module} (hOrder : module.tableOrder.Nodup)
    (hAll : ∀ kind, 0 < module.size kind → kind ∈ module.tableOrder) :
    module.emissionOrder = module.tableOrder := by
  have hRecorded : addKinds (fun _ => true) [] module.tableOrder = module.tableOrder :=
    addKinds_eq_append hOrder fun _ _ => rfl
  rw [emissionOrder, hRecorded]
  refine addKinds_eq_self fun kind _ hSize => hAll kind ?_
  simpa using hSize

/-- The order depends on what was recorded and on which tables are empty. -/
theorem emissionOrder_congr {first second : Module} (hOrder : first.tableOrder = second.tableOrder)
    (hSizes : ∀ kind, first.size kind = second.size kind) :
    first.emissionOrder = second.emissionOrder := by
  simp only [emissionOrder, hOrder, hSizes]

/-- The module with its order of writing recorded. -/
def ordered (module : Module) : Module :=
  { module with tableOrder := module.emissionOrder }

theorem ordered_eq_self {module : Module} (h : module.emissionOrder = module.tableOrder) :
    module.ordered = module := by
  rw [ordered, h]

/-- To bring the order up to date changes no table. -/
theorem entries_ordered (module : Module) (kind : TableKind) :
    module.ordered.entries kind = module.entries kind := by
  cases kind <;> rfl

theorem emissionOrder_ordered (module : Module) :
    module.ordered.emissionOrder = module.emissionOrder := by
  apply emissionOrder_eq_tableOrder module.nodup_emissionOrder
  intro kind hSize
  rw [size, entries_ordered] at hSize
  exact mem_emissionOrder.mpr (.inr hSize)

/-- The bodies in a row are what the contents of a file consist of. -/
theorem flatMap_bodies (module : Module) :
    module.bodies.flatMap Prod.snd = module.emissionOrder.flatMap module.body := by
  rw [bodies, List.flatMap_map]

theorem length_bodies_le (module : Module) :
    (module.bodies.flatMap Prod.snd).length ≤ module.encode.length := by
  simp only [encode, List.length_append]
  omega

theorem bodies_ordered (module : Module) : module.ordered.bodies = module.bodies := by
  simp only [bodies, body, entries_ordered, emissionOrder_ordered]

/-- A module is written in the same way when its order of writing is recorded. -/
theorem encode_ordered (module : Module) : module.ordered.encode = module.encode := by
  simp only [encode, bodies_ordered]
  rfl

end MoveModule.Module
