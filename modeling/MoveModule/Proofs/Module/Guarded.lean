import MoveModule.Proofs.Module.Verify

/-! The checks of a module never ask for an entry that is not there. Most entries are fetched
right after their index was checked. The signature of the parameters of a function is not: the
body of the function fetches it because all handles were checked before any body is. -/
namespace MoveModule.Verify

/-- The check asks only for entries that are there, whatever else it may find wrong. -/
def Guarded {α : Type} (check : Check α) : Prop :=
  ∀ index size, check ≠ .error (.unguardedIndex index size)

section

variable {α β : Type} {location : Location}

/-- A check that has passed has asked for nothing. -/
theorem guarded_ok (value : α) : Guarded (.ok value) := by
  intro index size h
  cases h

/-- The second check may rely on the first having passed. -/
theorem Guarded.bind {first : Check α} {second : α → Check β} (hFirst : Guarded first)
    (hSecond : ∀ value, first = .ok value → Guarded (second value)) :
    Guarded (first >>= second) := by
  intro index size h
  rcases Except.bind_eq_error.mp h with hError | ⟨value, hValue, hError⟩
  · exact hFirst index size hError
  · exact hSecond value hValue index size hError

/-- A condition that fails gives the error it was given. It fetches nothing itself. -/
theorem guarded_require (condition : Bool) {error : VerifyError}
    (hError : ∀ index size, error ≠ .unguardedIndex index size) :
    Guarded (require condition error) := by
  intro index size h
  cases condition with
  | true => cases h
  | false => exact hError index size (Except.error.inj h)

/-- To hold an index against a size fetches nothing. -/
theorem guarded_within (pool : Pool) (index size : Nat) :
    Guarded (within pool index size location) :=
  guarded_require _ fun _ _ h => VerifyError.noConfusion h

/-- An entry below the size of its table is there. -/
theorem guarded_fetch {entries : Array α} {index : Nat} (h : index < entries.size) :
    Guarded (fetch entries index) := by
  rw [fetch, Array.getElem?_eq_getElem h]
  exact guarded_ok _

/-- An index that is resolved is checked before its entry is fetched. -/
theorem guarded_resolve {pool : Pool} (index : Index pool) (entries : Array α) :
    Guarded (resolve index entries location) :=
  (guarded_within _ _ _).bind fun _ h => guarded_fetch (within_eq_ok.mp h)

/-- When the entry that an index leads to is not looked at. -/
theorem guarded_resolve_pure {pool : Pool} (index : Index pool) (entries : Array α) :
    Guarded (resolve index entries location >>= fun _ => pure ()) :=
  (guarded_resolve index entries).bind fun _ _ => guarded_ok ()

/-- Checks in a row. None of them relies on another, so each has to be guarded by itself. -/
theorem Guarded.forM {items : List α} {check : α → Check Unit}
    (h : ∀ item ∈ items, Guarded (check item)) : Guarded (items.forM check) := by
  induction items with
  | nil => exact guarded_ok ()
  | cons item rest ih =>
      rw [List.forall_mem_cons] at h
      exact h.1.bind fun _ _ => ih h.2

/-- A check of all entries of a table, each with its place. -/
theorem guarded_forEntries {entries : Array α} {check : Nat → α → Check Unit}
    (h : ∀ entry ∈ entries.toList, ∀ place, Guarded (check place entry)) :
    Guarded (forEntries entries check) := by
  refine Guarded.forM fun entry hEntry => ?_
  exact h entry.1 (List.mem_of_getElem? (List.mem_zipIdx_iff_getElem?.mp hEntry)) entry.2

end

section

variable {module : Module} {location : Location} {parameters : Option Nat}

theorem guarded_header (module : Module) : Guarded (header module) :=
  (guarded_require _ fun _ _ h => VerifyError.noConfusion h).bind fun _ _ =>
    guarded_require _ fun _ _ h => VerifyError.noConfusion h

theorem guarded_tableSizes (module : Module) : Guarded (tableSizes module) :=
  Guarded.forM fun _ _ => guarded_require _ fun _ _ h => VerifyError.noConfusion h

theorem guarded_identifiers (module : Module) : Guarded (identifiers module) := by
  intro index size h
  rw [identifiers] at h
  split at h <;> cases h

/-- The bytes of constants are looked at without any table. -/
theorem guarded_constants (module : Module) : Guarded (constants module) := by
  refine guarded_forEntries fun constant _ place index size h => ?_
  obtain ⟨_, -, hError⟩ := Except.mapError_eq_error.mp h
  cases hError

theorem guarded_moduleHandle (module : Module) (handle : ModuleHandle) :
    Guarded (moduleHandle module location handle) :=
  (guarded_resolve _ _).bind fun _ _ => guarded_resolve_pure _ _

theorem guarded_moduleHandles (module : Module) : Guarded (moduleHandles module) :=
  (guarded_forEntries fun _ _ _ => guarded_moduleHandle module _).bind fun _ _ =>
    guarded_forEntries fun _ _ _ => guarded_moduleHandle module _

theorem guarded_structHandles (module : Module) : Guarded (structHandles module) :=
  guarded_forEntries fun _ _ _ => (guarded_resolve _ _).bind fun _ _ => guarded_resolve_pure _ _

/-- A struct in a type is looked up only after its index was checked, also where its type parameters
are to be counted. -/
theorem guarded_node (type : SignatureToken) :
    Guarded (node module parameters location type) := by
  cases type with
  | struct handle => exact guarded_resolve_pure _ _
  | instantiation handle arguments =>
      refine (guarded_resolve _ _).bind fun _ _ => ?_
      exact guarded_require _ fun _ _ h => VerifyError.noConfusion h
  | typeParameter index =>
      cases parameters with
      | none => exact guarded_ok ()
      | some count => exact guarded_within _ _ _
  | _ => exact guarded_ok ()

/-- All nodes of a type are looked at, each by itself. -/
theorem guarded_token (type : SignatureToken) :
    Guarded (token module parameters location type) :=
  Guarded.forM fun node _ => guarded_node node

theorem guarded_signature (types : Signature) :
    Guarded (signature module parameters location types) :=
  Guarded.forM fun type _ => guarded_token type

/-- The signatures of a function are fetched through indices that have been resolved just before. -/
theorem guarded_functionHandles (module : Module) : Guarded (functionHandles module) := by
  refine guarded_forEntries fun handle _ place => ?_
  refine (guarded_resolve _ _).bind fun _ _ => ?_
  refine (guarded_resolve _ _).bind fun _ _ => ?_
  refine (guarded_resolve _ _).bind fun _ _ => ?_
  refine (guarded_resolve _ _).bind fun _ _ => ?_
  exact (guarded_signature _).bind fun _ _ => guarded_signature _

theorem guarded_signatures (module : Module) : Guarded (signatures module) :=
  guarded_forEntries fun types _ _ => guarded_signature types

/-- The handle of a struct is fetched for the number of its type parameters, right after its index
was checked. -/
theorem guarded_structDefinitions (module : Module) : Guarded (structDefinitions module) := by
  refine guarded_forEntries fun definition _ place => ?_
  refine (guarded_resolve _ _).bind fun handle _ => Guarded.forM fun field _ => ?_
  exact (guarded_resolve _ _).bind fun _ _ => guarded_token _

/-- Both parts of an instantiation are resolved, and neither entry is used. -/
theorem guarded_instantiation {α : Type} {pool : Pool} (entries : Array α)
    (instantiation : Instantiation pool) :
    Guarded (Verify.instantiation module entries location instantiation) :=
  (guarded_resolve _ _).bind fun _ _ => guarded_resolve_pure _ _

theorem guarded_instantiations (module : Module) : Guarded (instantiations module) :=
  (guarded_forEntries fun _ _ _ => guarded_instantiation _ _).bind fun _ _ =>
    (guarded_forEntries fun _ _ _ => guarded_instantiation _ _).bind fun _ _ =>
      guarded_forEntries fun _ _ _ => guarded_instantiation _ _

/-- The owner of a field is fetched after its index was checked, and asked for the number of its
fields. -/
theorem guarded_fieldHandles (module : Module) : Guarded (fieldHandles module) :=
  guarded_forEntries fun _ _ _ => (guarded_resolve _ _).bind fun _ _ => guarded_within _ _ _

theorem guarded_vectorType {frame : Frame} (index : Index .signatures) :
    Guarded (vectorType module frame location index) :=
  (guarded_resolve _ _).bind fun _ _ => guarded_signature _

/-- Operands lead to eight tables, and each is checked against its own. Targets and locals are
numbers with a bound and fetch nothing. -/
theorem guarded_operand {frame : Frame} (instruction : Instruction) :
    Guarded (operand module frame location instruction.opcode.operand instruction.operand) := by
  obtain ⟨opcode, value⟩ := instruction
  cases opcode <;> first
    | exact guarded_ok ()
    | exact guarded_within _ _ _
    | exact guarded_resolve_pure _ _
    | exact guarded_vectorType _

/-- A body asks for the parameters of its function, which are not checked with the body. -/
theorem guarded_code {place : Nat} {handle : FunctionHandle} {body : Code}
    (hParameters : handle.parameters.position < module.signatures.size) :
    Guarded (code module place handle body) := by
  refine (guarded_resolve _ _).bind fun locals _ => ?_
  refine (guarded_signature _).bind fun _ _ => ?_
  refine (guarded_fetch hParameters).bind fun parameters _ => ?_
  exact Guarded.forM fun entry _ => guarded_operand entry.1

/-- The bodies are checked after the handles of all functions, and for no other reason is the
signature of the parameters there. -/
theorem guarded_functionDefinitions
    (hHandles : ∀ handle ∈ module.functionHandles.toList,
      handle.parameters.position < module.signatures.size) :
    Guarded (functionDefinitions module) := by
  refine guarded_forEntries fun definition _ place => ?_
  refine (guarded_resolve _ _).bind fun handle hHandle => ?_
  refine (Guarded.forM fun index _ => guarded_resolve_pure _ _).bind fun _ _ => ?_
  cases definition.code with
  | none => exact guarded_ok ()
  | some body =>
      refine guarded_code (hHandles handle ?_)
      exact Array.mem_toList_iff.mpr (Array.mem_of_getElem? (resolve_eq_ok.mp hHandle))

end

/-- Without the handles a body may ask for what is not there. -/
example : functionDefinitions { bareModule with
    functionHandles := #[⟨⟨0⟩, ⟨0⟩, ⟨7⟩, ⟨0⟩, []⟩]
    signatures := #[[]]
    functionDefinitions := #[⟨⟨0⟩, .private, false, [], some ⟨⟨0⟩, [⟨.ret, ()⟩]⟩⟩] } =
      .error (.unguardedIndex 7 1) := rfl

/-- Each check relies on those before it. -/
theorem guarded_verify (module : Module) : Guarded module.verify := by
  refine (guarded_header module).bind fun _ _ => ?_
  refine (guarded_tableSizes module).bind fun _ _ => ?_
  refine (guarded_identifiers module).bind fun _ _ => ?_
  refine (guarded_constants module).bind fun _ _ => ?_
  refine (guarded_resolve_pure _ _).bind fun _ _ => ?_
  refine (guarded_moduleHandles module).bind fun _ _ => ?_
  refine (guarded_structHandles module).bind fun _ _ => ?_
  refine (guarded_functionHandles module).bind fun _ hFunctions => ?_
  refine (guarded_signatures module).bind fun _ hSignatures => ?_
  refine (guarded_structDefinitions module).bind fun _ _ => ?_
  refine (guarded_instantiations module).bind fun _ _ => ?_
  refine (guarded_fieldHandles module).bind fun _ _ => ?_
  rw [functionHandles_eq_ok (signatures_eq_ok.mp hSignatures)] at hFunctions
  refine guarded_functionDefinitions fun handle hHandle => ?_
  obtain ⟨-, -, ⟨parameters, hParameters, -⟩, -⟩ := hFunctions handle hHandle
  exact (Array.getElem?_eq_some_iff.mp hParameters).1

end MoveModule.Verify
