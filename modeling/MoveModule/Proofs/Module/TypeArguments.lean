import MoveModule.Proofs.Module.Verify

/-! The types that instructions of a generic function work on. An instruction about a vector
names their signature itself, and its type parameters are then held against those of the
function. Other generic instructions lead to a signature through an instantiation. The checks
follow both steps, but do not look at the type parameters that they find. -/
namespace MoveModule

namespace Opcode

/-- Whether the instruction is about a vector, the type of whose items it names. -/
def isVector : Opcode → Bool
  | vecPack | vecLen | vecImmBorrow | vecMutBorrow | vecPushBack | vecPopBack | vecUnpack
  | vecSwap => true
  | _ => false

/-- Whether the instruction uses an instantiation of a function, a struct or a field. -/
def isGeneric : Opcode → Bool
  | mutBorrowFieldGeneric | immBorrowFieldGeneric | callGeneric | packGeneric | unpackGeneric
  | existsGlobalGeneric | mutBorrowGlobalGeneric | immBorrowGlobalGeneric | moveFromGeneric
  | moveToGeneric => true
  | _ => false

/-- Whether the instruction works on types that it has to be given. -/
def hasTypeArguments (opcode : Opcode) : Bool :=
  opcode.isVector || opcode.isGeneric

end Opcode

/-- The type arguments of the entry that an index leads to. -/
def Module.argumentsAt? (module : Module) {pool generic : Pool}
    (entries : Array (Instantiation generic)) (index : Index pool) : Option Signature := do
  module.signatures[(← entries[index.position]?).arguments.position]?

/-- The type arguments that an operand stands for, directly or through an instantiation. -/
def OperandKind.typeArguments? (module : Module) :
    (kind : OperandKind) → kind.Value → Option Signature
  | .index .signatures, (type : Index .signatures) => module.signatures[type.position]?
  | .items, ((type, _) : Index .signatures × UInt64) => module.signatures[type.position]?
  | .index .functionInstantiations, (entry : Index .functionInstantiations) =>
      module.argumentsAt? module.functionInstantiations entry
  | .index .structInstantiations, (entry : Index .structInstantiations) =>
      module.argumentsAt? module.structInstantiations entry
  | .index .fieldInstantiations, (entry : Index .fieldInstantiations) =>
      module.argumentsAt? module.fieldInstantiations entry
  | _, _ => none

def Instruction.typeArguments? (instruction : Instruction) (module : Module) : Option Signature :=
  instruction.opcode.operand.typeArguments? module instruction.operand

namespace Module

/-- In all functions, the chosen instructions have type arguments, and the type parameters in
these are type parameters of the function. -/
def TypeArgumentsBound (module : Module) (chosen : Opcode → Bool) : Prop :=
  ∀ definition ∈ module.functionDefinitions.toList, ∀ code ∈ definition.code,
    ∃ handle, module.functionHandles[definition.handle.position]? = some handle ∧
      ∀ instruction ∈ code.instructions, chosen instruction.opcode = true →
        ∃ types, instruction.typeArguments? module = some types ∧
          ∀ type ∈ types, type.ParametersBelow handle.typeParameters.length

variable {module : Module}

theorem exists_argumentsAt?_eq {pool generic : Pool} {entries : Array (Instantiation generic)}
    {index : Index pool} (hEntries : ∀ entry ∈ entries.toList, entry.SoundIn module)
    (hIndex : index.position < entries.size) :
    ∃ types, module.argumentsAt? entries index = some types := by
  obtain ⟨entry, hEntry, -, hArguments⟩ := exists_getElem?_eq hEntries hIndex
  exact ⟨_, Option.bind_eq_some_iff.mpr ⟨entry, hEntry, Array.getElem?_eq_getElem hArguments⟩⟩

section

variable {instruction : Instruction} {frame : Verify.Frame}
  (hOperand : instruction.opcode.operand.SoundIn module frame instruction.operand)

include hOperand

/-- The type of the items of a vector belongs to the function. -/
theorem parametersBelow_of_isVector (hVector : instruction.opcode.isVector = true) :
    ∃ types, instruction.typeArguments? module = some types ∧
      ∀ type ∈ types, type.ParametersBelow frame.typeParameters := by
  obtain ⟨opcode, operand⟩ := instruction
  cases opcode <;> first
    | exact hOperand
    | exact absurd hVector Bool.false_ne_true

/-- The way through an instantiation ends at a signature. -/
theorem Sound.exists_typeArguments?_eq (hSound : module.Sound)
    (hGeneric : instruction.opcode.isGeneric = true) :
    ∃ types, instruction.typeArguments? module = some types := by
  obtain ⟨opcode, operand⟩ := instruction
  cases opcode <;> first
    | exact exists_argumentsAt?_eq hSound.functionInstantiations hOperand
    | exact exists_argumentsAt?_eq hSound.structInstantiations hOperand
    | exact exists_argumentsAt?_eq hSound.fieldInstantiations hOperand
    | exact absurd hGeneric Bool.false_ne_true

end

/-- What a body knows of its function is the number of its type parameters. -/
theorem Sound.operands (hSound : module.Sound) {definition : FunctionDefinition} {code : Code}
    (hDefinition : definition ∈ module.functionDefinitions.toList)
    (hCode : code ∈ definition.code) :
    ∃ handle, module.functionHandles[definition.handle.position]? = some handle ∧
      ∀ instruction ∈ code.instructions, ∃ frame : Verify.Frame,
        frame.typeParameters = handle.typeParameters.length ∧
          instruction.opcode.operand.SoundIn module frame instruction.operand := by
  obtain ⟨handle, hHandle, -, hBodies⟩ := hSound.functionDefinitions definition hDefinition
  obtain ⟨_, _, -, -, -, hOperands⟩ := hBodies code hCode
  exact ⟨handle, hHandle,
    fun instruction hMember => ⟨_, rfl, hOperands instruction hMember⟩⟩

/-- In an accepted module the type parameters of vector instructions belong to the function
around them. Those of the other generic instructions need not: that they do is the same as to
ask it of every signature that an instantiation leads to. -/
theorem typeArgumentsBound_iff (h : module.verify = .ok ()) :
    module.TypeArgumentsBound Opcode.isVector ∧
    (module.TypeArgumentsBound Opcode.hasTypeArguments ↔
      ∀ definition ∈ module.functionDefinitions.toList, ∀ code ∈ definition.code,
        ∀ handle ∈ module.functionHandles[definition.handle.position]?,
          ∀ instruction ∈ code.instructions, instruction.opcode.isGeneric = true →
            ∀ types ∈ instruction.typeArguments? module,
              ∀ type ∈ types, type.ParametersBelow handle.typeParameters.length) := by
  have hSound := sound_of_verify h
  refine ⟨?_, ?_, ?_⟩
  · intro definition hDefinition code hCode
    obtain ⟨handle, hHandle, hOperands⟩ := hSound.operands hDefinition hCode
    refine ⟨handle, hHandle, fun instruction hMember hVector => ?_⟩
    obtain ⟨frame, hFrame, hOperand⟩ := hOperands instruction hMember
    exact hFrame ▸ parametersBelow_of_isVector hOperand hVector
  · intro hBound definition hDefinition code hCode handle hHandle instruction hMember hGeneric
      types hTypes
    obtain ⟨same, hSame, hInstructions⟩ := hBound definition hDefinition code hCode
    obtain rfl := Option.some.inj (hSame.symm.trans hHandle)
    have hChosen : instruction.opcode.hasTypeArguments = true :=
      Bool.or_eq_true_iff.mpr (.inr hGeneric)
    obtain ⟨found, hFound, hBelow⟩ := hInstructions instruction hMember hChosen
    obtain rfl := Option.some.inj (hFound.symm.trans hTypes)
    exact hBelow
  · intro hInstantiated definition hDefinition code hCode
    obtain ⟨handle, hHandle, hOperands⟩ := hSound.operands hDefinition hCode
    refine ⟨handle, hHandle, fun instruction hMember hChosen => ?_⟩
    obtain ⟨frame, hFrame, hOperand⟩ := hOperands instruction hMember
    rcases Bool.or_eq_true_iff.mp hChosen with hVector | hGeneric
    · exact hFrame ▸ parametersBelow_of_isVector hOperand hVector
    · obtain ⟨types, hTypes⟩ := hSound.exists_typeArguments?_eq hOperand hGeneric
      exact ⟨types, hTypes, hInstantiated definition hDefinition code hCode handle hHandle
        instruction hMember hGeneric types hTypes⟩

/-- The code of a function that calls an instantiation. -/
def callingCode : Code :=
  ⟨⟨0⟩, [⟨.callGeneric, (⟨0⟩ : Index .functionInstantiations)⟩, ⟨.ret, ()⟩]⟩

/-- A module with a function that has no type parameters and calls itself with one. -/
def danglingModule : Module :=
  { bareModule with
    functionHandles := #[⟨⟨0⟩, ⟨0⟩, ⟨0⟩, ⟨0⟩, []⟩]
    functionInstantiations := #[⟨⟨0⟩, ⟨1⟩⟩]
    signatures := #[[], [.typeParameter ⟨0⟩]]
    functionDefinitions := #[⟨⟨0⟩, .private, false, [], some callingCode⟩] }

/-- The module is accepted although no function around the type parameter declares it. -/
theorem typeArgumentsBound_iff_dangling :
    danglingModule.verify = .ok () ∧ danglingModule.TypeArgumentsBound Opcode.isVector ∧
      ¬ danglingModule.TypeArgumentsBound Opcode.hasTypeArguments := by
  have hSignatures : Verify.signatures danglingModule = .ok () := by
    rw [Verify.signatures_eq_ok]
    simp [danglingModule, SignatureToken.StructsIn, SignatureToken.nodes]
  have hVerify : danglingModule.verify = .ok () :=
    verify_eq_ok.mpr ⟨rfl, rfl, rfl, rfl, rfl, rfl, rfl, rfl, hSignatures, rfl, rfl, rfl, rfl⟩
  obtain ⟨hVectors, hIff⟩ := typeArgumentsBound_iff hVerify
  refine ⟨hVerify, hVectors, fun hBound => ?_⟩
  have hDefinition : ⟨⟨0⟩, .private, false, [], some callingCode⟩ ∈
      danglingModule.functionDefinitions.toList := List.mem_singleton.mpr rfl
  have hBelow := hIff.mp hBound _ hDefinition callingCode rfl _ rfl
    _ List.mem_cons_self rfl [.typeParameter ⟨0⟩] rfl _ List.mem_cons_self
  exact absurd (hBelow ⟨0⟩ List.mem_cons_self) (Nat.not_lt_zero 0)

end Module

end MoveModule
