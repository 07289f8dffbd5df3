import MoveModule.Proofs.Except
import MoveModule.Proofs.Module.Sound
import MoveModule.Proofs.Signature

/-! The checks of a module accept the modules that are sound, and no others. -/
namespace MoveModule

/-- No entry is found a second time if the entries are all different, and none of them is among
those seen before. -/
theorem firstRepeat?_eq_none {α : Type} [DecidableEq α] {seen entries : List α} :
    firstRepeat? seen entries = none ↔ entries.Nodup ∧ ∀ entry ∈ entries, entry ∉ seen := by
  induction entries generalizing seen with
  | nil => simp [firstRepeat?]
  | cons entry rest ih =>
      rw [firstRepeat?]
      grind

/-- What holds of all entries holds of the one that a place leads to. -/
theorem exists_getElem?_eq {α : Type} {entries : Array α} {sound : α → Prop} {place : Nat}
    (hEntries : ∀ entry ∈ entries.toList, sound entry) (hPlace : place < entries.size) :
    ∃ entry, entries[place]? = some entry ∧ sound entry :=
  ⟨entries[place], Array.getElem?_eq_getElem hPlace,
    hEntries _ (Array.mem_toList_iff.mpr (Array.getElem_mem hPlace))⟩

namespace Verify

section

variable {α : Type} {location : Location}

@[simp]
theorem require_eq_ok {condition : Bool} {error : VerifyError} :
    require condition error = .ok () ↔ condition = true := by
  cases condition <;> simp [require]

/-- An index passes if it is below the size of its pool. -/
@[simp]
theorem within_eq_ok {pool : Pool} {index size : Nat} :
    within pool index size location = .ok () ↔ index < size := by
  simp [within]

/-- What is fetched is the entry at the index. -/
@[simp]
theorem fetch_eq_ok {entries : Array α} {index : Nat} {entry : α} :
    fetch entries index = .ok entry ↔ entries[index]? = some entry := by
  rw [fetch]
  cases entries[index]? <;> simp

/-- An index is resolved to the entry that it leads to. -/
@[simp]
theorem resolve_eq_ok {pool : Pool} {index : Index pool} {entries : Array α} {entry : α} :
    resolve index entries location = .ok entry ↔ entries[index.position]? = some entry := by
  simp only [resolve, Except.andThen_eq_ok, within_eq_ok, fetch_eq_ok, and_iff_right_iff_imp]
  exact fun hEntry => (Array.getElem?_eq_some_iff.mp hEntry).1

/-- When it does not matter which entry an index leads to. -/
theorem resolve_andThen_eq_ok {β : Type} {pool : Pool} {index : Index pool} {entries : Array α}
    {second : Check β} {value : β} :
    (resolve index entries location >>= fun _ => second) = .ok value ↔
      index.position < entries.size ∧ second = .ok value := by
  simp only [Except.bind_eq_ok, resolve_eq_ok]
  constructor
  · intro h
    obtain ⟨_, hEntry, hSecond⟩ := h
    obtain ⟨hIndex, -⟩ := Array.getElem?_eq_some_iff.mp hEntry
    exact ⟨hIndex, hSecond⟩
  · intro h
    obtain ⟨hIndex, hSecond⟩ := h
    exact ⟨_, Array.getElem?_eq_getElem hIndex, hSecond⟩

/-- Where the entry itself is not needed, an index has only to lead to one. -/
theorem resolve_pure_eq_ok {pool : Pool} {index : Index pool} {entries : Array α} :
    (resolve index entries location >>= fun _ => pure ()) = .ok () ↔
      index.position < entries.size := by
  simp only [resolve_andThen_eq_ok, Except.pure_eq_ok, and_true]

/-- Entries that are checked by themselves have to pass one by one. -/
theorem forM_zipIdx_eq_ok {items : List α} {check : α × Nat → Check Unit} {sound : α → Prop}
    (h : ∀ item ∈ items, ∀ place, check (item, place) = .ok () ↔ sound item) :
    items.zipIdx.forM check = .ok () ↔ ∀ item ∈ items, sound item := by
  rw [Except.forM_eq_ok]
  constructor
  · intro hAll item hItem
    obtain ⟨place, hPlace⟩ := List.getElem?_of_mem hItem
    exact (h item hItem place).mp
      (hAll (item, place) (List.mem_zipIdx_iff_getElem?.mpr hPlace))
  · intro hAll entry hItem
    rcases entry with ⟨item, place⟩
    have hMember := List.mem_of_getElem? (List.mem_zipIdx_iff_getElem?.mp hItem)
    exact (h item hMember place).mpr (hAll item hMember)

/-- All entries of a table are sound. Their places are used for nothing but errors. -/
theorem forEntries_eq_ok {entries : Array α} {check : Nat → α → Check Unit} {sound : α → Prop}
    (h : ∀ entry ∈ entries.toList, ∀ place, check place entry = .ok () ↔ sound entry) :
    forEntries entries check = .ok () ↔ ∀ entry ∈ entries.toList, sound entry :=
  forM_zipIdx_eq_ok h

end

section

variable {module : Module} {location : Location}

theorem header_eq_ok :
    header module = .ok () ↔
      module.magic = Module.magicBytes ∧ Module.isSupported module.version = true := by
  simp only [header, Except.andThen_eq_ok, require_eq_ok, decide_eq_true_eq]

/-- Tables have at most as many entries as indices can tell apart. -/
theorem tableSizes_eq_ok : tableSizes module = .ok () ↔ ∀ kind, module.size kind ≤ 65536 := by
  simp only [tableSizes, Except.forM_eq_ok, require_eq_ok, decide_eq_true_eq,
    TableKind.mem_canonicalOrder, true_imp_iff]
  rfl

/-- No name is in the table of identifiers twice. -/
theorem identifiers_eq_ok :
    identifiers module = .ok () ↔ module.identifiers.toList.Nodup := by
  have hNone := @firstRepeat?_eq_none _ _ [] module.identifiers.toList
  rw [identifiers]
  cases hRepeat : firstRepeat? [] module.identifiers.toList with
  | none => simpa [hRepeat] using hNone
  | some name => simpa [hRepeat] using hNone

/-- The bytes of every constant are those of a value of its type. -/
theorem constants_eq_ok :
    constants module = .ok () ↔ ∀ constant ∈ module.constants.toList,
      ∃ value, ConstantValue.Encodes constant.type value constant.value := by
  apply forEntries_eq_ok
  intro constant _ place
  rw [Except.mapError_eq_ok, ConstantType.checkValue_eq_ok]

theorem self_eq_ok : self module = .ok () ↔ module.Resolves module.self :=
  resolve_pure_eq_ok

/-- A module handle leads to an address and to a name. -/
theorem moduleHandle_eq_ok {handle : ModuleHandle} :
    moduleHandle module location handle = .ok () ↔ handle.SoundIn module := by
  simp only [moduleHandle, resolve_andThen_eq_ok, Except.pure_eq_ok, and_true]
  rfl

theorem moduleHandles_eq_ok :
    moduleHandles module = .ok () ↔
      (∀ handle ∈ module.moduleHandles.toList, handle.SoundIn module) ∧
      ∀ handle ∈ module.friends.toList, handle.SoundIn module := by
  rw [moduleHandles, Except.andThen_eq_ok]
  exact and_congr (forEntries_eq_ok fun _ _ _ => moduleHandle_eq_ok)
    (forEntries_eq_ok fun _ _ _ => moduleHandle_eq_ok)

theorem structHandles_eq_ok :
    structHandles module = .ok () ↔
      ∀ handle ∈ module.structHandles.toList, handle.SoundIn module := by
  apply forEntries_eq_ok
  intro handle _ place
  simp only [resolve_andThen_eq_ok, Except.pure_eq_ok, and_true]
  rfl

/-- What is checked of a token depends on whether it is a struct, a generic struct or a
type parameter. -/
theorem node_eq_ok {parameters : Option Nat} {type : SignatureToken} :
    node module parameters location type = .ok () ↔
      (∀ handle, type = .struct handle → handle.position < module.structHandles.size) ∧
      (∀ handle arguments, type = .instantiation handle arguments →
        ∃ declared, module.structHandles[handle.position]? = some declared ∧
          arguments.length = declared.typeParameters.length) ∧
      ∀ count ∈ parameters, ∀ index, type = .typeParameter index → index.position < count := by
  cases type with
  | struct handle =>
      rw [node, resolve_pure_eq_ok]
      simp
  | instantiation handle arguments => simp [node]
  | typeParameter index => cases parameters <;> simp [node]
  | _ => simp [node]

/-- A type passes if all structs in it do and, where the number of type parameters is known, all
type parameters are below it. The nodes of the type are gone through for both at once. -/
theorem token_eq_ok {parameters : Option Nat} {type : SignatureToken} :
    token module parameters location type = .ok () ↔
      type.StructsIn module.structHandles ∧ ∀ count ∈ parameters, type.ParametersBelow count := by
  simp only [token, SignatureToken.preorder_eq, Except.forM_eq_ok, node_eq_ok]
  constructor
  · intro h
    refine ⟨⟨?_, ?_⟩, ?_⟩
    · intro handle hNode
      exact (h _ hNode).1 handle rfl
    · intro handle arguments hNode
      exact (h _ hNode).2.1 handle arguments rfl
    · intro count hCount index hNode
      exact (h _ hNode).2.2 count hCount index rfl
  · intro hType node hNode
    rcases hType with ⟨⟨hStructs, hInstantiations⟩, hParameters⟩
    refine ⟨?_, ?_, ?_⟩
    · intro handle hSame
      subst hSame
      exact hStructs handle hNode
    · intro handle arguments hSame
      subst hSame
      exact hInstantiations handle arguments hNode
    · intro count hCount index hSame
      subst hSame
      exact hParameters count hCount index hNode

/-- All types of a signature pass the same check. -/
theorem signature_eq_ok {parameters : Option Nat} {types : Signature} :
    signature module parameters location types = .ok () ↔
      ∀ type ∈ types, type.StructsIn module.structHandles ∧
        ∀ count ∈ parameters, type.ParametersBelow count := by
  simp only [signature, Except.forM_eq_ok, token_eq_ok]

/-- In the pool of signatures no number of type parameters is known, so there only structs are
looked at. -/
theorem signatures_eq_ok :
    signatures module = .ok () ↔ ∀ types ∈ module.signatures.toList, ∀ type ∈ types,
      type.StructsIn module.structHandles := by
  apply forEntries_eq_ok
  intro types _ place
  simp [signature_eq_ok]

/-- Structs in the signatures of the module have been looked at once and for all. -/
theorem signature_of_signatures {index : Index .signatures} {types : Signature} {count : Nat}
    (hSignatures : ∀ types ∈ module.signatures.toList, ∀ type ∈ types,
      type.StructsIn module.structHandles)
    (hIndex : module.signatures[index.position]? = some types) :
    signature module (some count) location types = .ok () ↔
      ∀ type ∈ types, type.ParametersBelow count := by
  have hTypes := hSignatures types (Array.mem_toList_iff.mpr (Array.mem_of_getElem? hIndex))
  simp only [signature_eq_ok, Option.mem_def, Option.some.injEq, forall_eq']
  exact forall_congr' fun type => forall_congr' fun hType => and_iff_right (hTypes type hType)

end

section

variable {module : Module} (hSignatures : ∀ types ∈ module.signatures.toList, ∀ type ∈ types,
  type.StructsIn module.structHandles)

include hSignatures

/-- A signature is looked up and then held against the type parameters around it. -/
theorem resolve_signature_eq_ok {location : Location} {index : Index .signatures} {count : Nat} :
    (resolve index module.signatures location >>= fun types =>
        signature module (some count) location types) = .ok () ↔
      module.ParametersBelow index count := by
  simp only [Except.bind_eq_ok, resolve_eq_ok]
  exact exists_congr fun types => and_congr_right fun hIndex =>
    signature_of_signatures hSignatures hIndex

/-- The signatures of a function are in the pool, and their structs are checked with it. What is
added here is that their type parameters are those of the function. -/
theorem functionHandles_eq_ok :
    functionHandles module = .ok () ↔
      ∀ handle ∈ module.functionHandles.toList, handle.SoundIn module := by
  apply forEntries_eq_ok
  intro handle _ place
  simp only [resolve_andThen_eq_ok]
  simp only [Except.bind_eq_ok, resolve_eq_ok]
  constructor
  · intro h
    obtain ⟨hModule, hName, parameters, hParameters, results, hResults, _, hFirst, hSecond⟩ := h
    have hBelow := (signature_of_signatures hSignatures hParameters).mp hFirst
    have hResultsBelow := (signature_of_signatures hSignatures hResults).mp hSecond
    exact ⟨hModule, hName, ⟨parameters, hParameters, hBelow⟩, results, hResults, hResultsBelow⟩
  · intro h
    obtain ⟨hModule, hName, ⟨parameters, hParameters, hBelow⟩, results, hResults,
      hResultsBelow⟩ := h
    refine ⟨hModule, hName, parameters, hParameters, results, hResults, (), ?_, ?_⟩
    · exact (signature_of_signatures hSignatures hParameters).mpr hBelow
    · exact (signature_of_signatures hSignatures hResults).mpr hResultsBelow

omit hSignatures in
/-- The fields of a struct are held against the type parameters of its handle. -/
theorem structDefinitions_eq_ok :
    structDefinitions module = .ok () ↔
      ∀ definition ∈ module.structDefinitions.toList, definition.SoundIn module := by
  apply forEntries_eq_ok
  intro definition _ place
  simp only [Except.bind_eq_ok, resolve_eq_ok]
  refine exists_congr fun handle => and_congr_right fun _ =>
    forM_zipIdx_eq_ok fun field _ number => ?_
  simp only [resolve_andThen_eq_ok, token_eq_ok, Option.mem_def, Option.some.injEq, forall_eq']
  rfl

omit hSignatures in
/-- An instantiation leads to a generic entry and to a signature. The number of arguments in the
signature is not compared with anything. -/
theorem instantiation_eq_ok {α : Type} {pool : Pool} {entries : Array α} {location : Location}
    {instantiation : Instantiation pool} (hEntries : entries.size = module.poolSize pool) :
    Verify.instantiation module entries location instantiation = .ok () ↔
      instantiation.SoundIn module := by
  simp only [Verify.instantiation, resolve_andThen_eq_ok, Except.pure_eq_ok, and_true, hEntries]
  rfl

omit hSignatures in
theorem instantiations_eq_ok :
    instantiations module = .ok () ↔
      (∀ instantiation ∈ module.structInstantiations.toList, instantiation.SoundIn module) ∧
      (∀ instantiation ∈ module.functionInstantiations.toList, instantiation.SoundIn module) ∧
      ∀ instantiation ∈ module.fieldInstantiations.toList, instantiation.SoundIn module := by
  rw [instantiations, Except.andThen_eq_ok, Except.andThen_eq_ok]
  exact and_congr (forEntries_eq_ok fun _ _ _ => instantiation_eq_ok rfl)
    (and_congr (forEntries_eq_ok fun _ _ _ => instantiation_eq_ok rfl)
      (forEntries_eq_ok fun _ _ _ => instantiation_eq_ok rfl))

omit hSignatures in
/-- A field handle leads to a struct that has the field. A native struct has none. -/
theorem fieldHandles_eq_ok :
    fieldHandles module = .ok () ↔
      ∀ handle ∈ module.fieldHandles.toList, handle.SoundIn module := by
  apply forEntries_eq_ok
  intro handle _ place
  simp only [Except.bind_eq_ok, resolve_eq_ok, within_eq_ok]
  rfl

theorem vectorType_eq_ok {location : Location} {frame : Frame} {index : Index .signatures} :
    vectorType module frame location index = .ok () ↔
      module.ParametersBelow index frame.typeParameters :=
  resolve_signature_eq_ok hSignatures

/-- What is checked of an operand, kind by kind. Most kinds are indices into one table each. -/
theorem operand_eq_ok {location : Location} {frame : Frame} (instruction : Instruction) :
    operand module frame location instruction.opcode.operand instruction.operand = .ok () ↔
      instruction.opcode.operand.SoundIn module frame instruction.operand := by
  obtain ⟨opcode, value⟩ := instruction
  cases opcode <;> first
    | exact iff_of_true rfl trivial
    | exact within_eq_ok
    | exact resolve_pure_eq_ok
    | exact vectorType_eq_ok hSignatures

/-- A body is checked with what its function handle says. The locals that instructions may name are
the parameters and those of the body. -/
theorem code_eq_ok {place : Nat} {handle : FunctionHandle} {body : Code} :
    code module place handle body = .ok () ↔ body.SoundIn module handle := by
  have hInstructions (frame : Frame) :
      (body.instructions.zipIdx.forM fun entry =>
        operand module frame (.instruction place entry.2) entry.1.opcode.operand
          entry.1.operand) = .ok () ↔
        ∀ instruction ∈ body.instructions,
          instruction.opcode.operand.SoundIn module frame instruction.operand :=
    forM_zipIdx_eq_ok fun instruction _ _ => operand_eq_ok hSignatures instruction
  simp only [code, Except.bind_eq_ok, resolve_eq_ok, fetch_eq_ok]
  constructor
  · intro h
    obtain ⟨locals, hLocals, _, hTypes, parameters, hParameters, hBody⟩ := h
    have hBelow := (signature_of_signatures hSignatures hLocals).mp hTypes
    have hOperands := (hInstructions _).mp hBody
    exact ⟨parameters, locals, hParameters, hLocals, hBelow, hOperands⟩
  · intro h
    obtain ⟨parameters, locals, hParameters, hLocals, hBelow, hOperands⟩ := h
    have hBody := (hInstructions _).mpr hOperands
    refine ⟨locals, hLocals, (), ?_, parameters, hParameters, hBody⟩
    exact (signature_of_signatures hSignatures hLocals).mpr hBelow

/-- A function is sound if its handle is there, all resources it takes are defined, and its body is
sound in case there is one. -/
theorem functionDefinitions_eq_ok :
    functionDefinitions module = .ok () ↔
      ∀ definition ∈ module.functionDefinitions.toList, definition.SoundIn module := by
  apply forEntries_eq_ok
  intro definition _ place
  have hAcquires : (definition.acquires.forM fun index => do
        let _ ← resolve index module.structDefinitions (.functionDefinition place)) = .ok () ↔
      ∀ index ∈ definition.acquires, module.Resolves index := by
    simp only [Except.forM_eq_ok, resolve_pure_eq_ok]
    rfl
  refine Except.bind_eq_ok.trans (exists_congr fun handle => and_congr resolve_eq_ok ?_)
  refine Except.andThen_eq_ok.trans (and_congr hAcquires ?_)
  cases definition.code with
  | none => simp
  | some body =>
      rw [code_eq_ok hSignatures]
      simp

end

end Verify

theorem Module.isSupported_iff {version : UInt32} :
    isSupported version = true ↔ version = 5 ∨ version = 6 := by
  have hFive : (5 : UInt32).toNat = 5 := rfl
  have hSix : (6 : UInt32).toNat = 6 := rfl
  rw [isSupported, Bool.and_eq_true, decide_eq_true_eq, decide_eq_true_eq,
    UInt32.le_iff_toNat_le, UInt32.le_iff_toNat_le, ← UInt32.toNat_inj, ← UInt32.toNat_inj]
  omega

/-- The checks pass together when each of them does. -/
theorem Module.verify_eq_ok {module : Module} :
    module.verify = .ok () ↔
      Verify.header module = .ok () ∧ Verify.tableSizes module = .ok () ∧
      Verify.identifiers module = .ok () ∧ Verify.constants module = .ok () ∧
      Verify.self module = .ok () ∧ Verify.moduleHandles module = .ok () ∧
      Verify.structHandles module = .ok () ∧ Verify.functionHandles module = .ok () ∧
      Verify.signatures module = .ok () ∧ Verify.structDefinitions module = .ok () ∧
      Verify.instantiations module = .ok () ∧ Verify.fieldHandles module = .ok () ∧
      Verify.functionDefinitions module = .ok () := by
  simp only [verify, Except.andThen_eq_ok]

/-- Each check gives one condition. Those of function handles and of definitions need the check of
the signatures, which comes before or after them. -/
theorem Module.sound_of_verify {module : Module} (h : module.verify = .ok ()) : module.Sound := by
  rw [verify_eq_ok, Verify.header_eq_ok, Verify.tableSizes_eq_ok, Verify.identifiers_eq_ok,
    Verify.constants_eq_ok, Verify.self_eq_ok, Verify.moduleHandles_eq_ok,
    Verify.structHandles_eq_ok, Verify.signatures_eq_ok, Verify.structDefinitions_eq_ok,
    Verify.instantiations_eq_ok, Verify.fieldHandles_eq_ok, isSupported_iff] at h
  obtain ⟨⟨hMagic, hVersion⟩, hSizes, hIdentifiers, hConstants, hSelf, ⟨hModules, hFriends⟩,
    hStructs, hFunctions, hSignatures, hStructDefinitions, ⟨hStructInstantiations,
    hFunctionInstantiations, hFieldInstantiations⟩, hFields, hDefinitions⟩ := h
  rw [Verify.functionHandles_eq_ok hSignatures] at hFunctions
  rw [Verify.functionDefinitions_eq_ok hSignatures] at hDefinitions
  constructor <;> assumption

/-- All conditions together let every check pass, in whatever order they are made. -/
theorem Module.verify_of_sound {module : Module} (h : module.Sound) : module.verify = .ok () := by
  obtain ⟨hMagic, hVersion, hSizes, hIdentifiers, hConstants, hSelf, hModules, hFriends,
    hStructs, hFunctions, hSignatures, hStructDefinitions, hStructInstantiations,
    hFunctionInstantiations, hFieldInstantiations, hFields, hDefinitions⟩ := h
  rw [verify_eq_ok, Verify.header_eq_ok, Verify.tableSizes_eq_ok, Verify.identifiers_eq_ok,
    Verify.constants_eq_ok, Verify.self_eq_ok, Verify.moduleHandles_eq_ok,
    Verify.structHandles_eq_ok, Verify.functionHandles_eq_ok hSignatures, Verify.signatures_eq_ok,
    Verify.structDefinitions_eq_ok, Verify.instantiations_eq_ok, Verify.fieldHandles_eq_ok,
    Verify.functionDefinitions_eq_ok hSignatures, isSupported_iff]
  exact ⟨⟨hMagic, hVersion⟩, hSizes, hIdentifiers, hConstants, hSelf, ⟨hModules, hFriends⟩,
    hStructs, hFunctions, hSignatures, hStructDefinitions, ⟨hStructInstantiations,
    hFunctionInstantiations, hFieldInstantiations⟩, hFields, hDefinitions⟩

/-- The checks accept the modules that are sound in themselves, and no others. -/
theorem Module.verify_eq_ok_iff_sound (module : Module) :
    module.verify = .ok () ↔ module.Sound :=
  ⟨sound_of_verify, verify_of_sound⟩

end MoveModule
