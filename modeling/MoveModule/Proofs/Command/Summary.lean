import MoveModule.Command.Summary
import MoveModule.Proofs.Module.Guarded
import MoveModule.Proofs.Template

/-! What is shown of an accepted module is there to be shown: it has a name and an address, and its
structs and functions have names. The signs that stand for missing names are never shown. -/
namespace MoveModule

theorem Module.exists_identifier?_eq {module : Module} {index : Index .identifiers}
    (h : module.Resolves index) : ∃ name, module.identifier? index = some name :=
  ⟨_, Array.getElem?_eq_getElem h⟩

namespace Module.Sound

variable {module : Module}

/-- The handle of the module itself leads to a name and to an address. -/
theorem exists_selfHandle?_eq (h : module.Sound) :
    ∃ handle name address, module.selfHandle? = some handle ∧
      module.identifier? handle.name = some name ∧
      module.addresses[handle.address.position]? = some address := by
  obtain ⟨handle, hHandle, hAddress, hName⟩ := exists_getElem?_eq h.moduleHandles h.self
  obtain ⟨name, hName⟩ := exists_identifier?_eq hName
  exact ⟨handle, name, _, hHandle, hName, Array.getElem?_eq_getElem hAddress⟩

/-- In a sound module the name of every struct that is defined can be looked up, by way of its
handle. -/
theorem exists_structName_eq (h : module.Sound) {definition : StructDefinition}
    (hDefinition : definition ∈ module.structDefinitions.toList) :
    ∃ handle name, module.structHandles[definition.handle.position]? = some handle ∧
      module.identifier? handle.name = some name ∧
      Command.structName module definition = name.text := by
  obtain ⟨handle, hHandle, -⟩ := h.structDefinitions definition hDefinition
  have hMember := Array.mem_toList_iff.mpr (Array.mem_of_getElem? hHandle)
  obtain ⟨name, hName⟩ := exists_identifier?_eq (h.structHandles handle hMember).2
  refine ⟨handle, name, hHandle, hName, ?_⟩
  simp only [Command.structName, Command.nameText, hHandle, hName]

/-- In a sound module the name of every function that is defined can be looked up, by way of its
handle. -/
theorem exists_functionName_eq (h : module.Sound) {definition : FunctionDefinition}
    (hDefinition : definition ∈ module.functionDefinitions.toList) :
    ∃ handle name, module.functionHandles[definition.handle.position]? = some handle ∧
      module.identifier? handle.name = some name ∧
      Command.functionName module definition = name.text := by
  obtain ⟨handle, hHandle, -⟩ := h.functionDefinitions definition hDefinition
  have hMember := Array.mem_toList_iff.mpr (Array.mem_of_getElem? hHandle)
  obtain ⟨name, hName⟩ := exists_identifier?_eq (h.functionHandles handle hMember).2.1
  refine ⟨handle, name, hHandle, hName, ?_⟩
  simp only [Command.functionName, Command.nameText, hHandle, hName]

end Module.Sound

namespace Command

/-- The summary begins with the name and the address of the module. -/
theorem names_prefix_summary {module : Module} {name : Identifier} {address : Address}
    (hName : module.name? = some name) (hAddress : module.address? = some address)
    (bytes : List UInt8) :
    labelled "Module" name.text ++ labelled "Address" address.display <+: summary module bytes := by
  simp only [summary, hName, hAddress, List.append_assoc]
  exact ⟨_, List.append_assoc _ _ _⟩

/-- No check of any module asks for an entry that is not there. In a module that is accepted from a
file, what the summary looks up is there too: the handles of all definitions, their names, and the
name and the address of the module. -/
theorem looked_up_entries_exist :
    (∀ (module : Module) (index size : Nat), module.verify ≠ .error (.unguardedIndex index size)) ∧
    ∀ (bytes : List UInt8) (module : Module), Template.deserialize bytes = .ok module →
      (∃ name address, module.name? = some name ∧ module.address? = some address ∧
        labelled "Module" name.text ++ labelled "Address" address.display <+:
          summary module bytes) ∧
      (∀ definition ∈ module.structDefinitions.toList,
        ∃ handle name, module.structHandles[definition.handle.position]? = some handle ∧
          module.identifier? handle.name = some name ∧
          structName module definition = name.text) ∧
      ∀ definition ∈ module.functionDefinitions.toList,
        ∃ handle name, module.functionHandles[definition.handle.position]? = some handle ∧
          module.identifier? handle.name = some name ∧
          functionName module definition = name.text := by
  refine ⟨Verify.guarded_verify, ?_⟩
  intro bytes module hModule
  have hSound := Module.sound_of_verify (Template.deserialize_eq_ok.mp hModule).2
  obtain ⟨handle, name, address, hHandle, hName, hAddress⟩ := hSound.exists_selfHandle?_eq
  have hModuleName : module.name? = some name := by rw [Module.name?, hHandle]; exact hName
  have hModuleAddress : module.address? = some address := by
    rw [Module.address?, hHandle]
    exact hAddress
  refine ⟨⟨name, address, hModuleName, hModuleAddress, ?_⟩, ?_, ?_⟩
  · exact names_prefix_summary hModuleName hModuleAddress bytes
  · exact fun definition hDefinition => hSound.exists_structName_eq hDefinition
  · exact fun definition hDefinition => hSound.exists_functionName_eq hDefinition

/-- A module with a struct and a function. -/
def definedModule : Module :=
  { bareModule with
    tableOrder := [.identifiers, .moduleHandles, .addresses, .structHandles, .functionHandles,
      .signatures, .structDefinitions, .functionDefinitions]
    identifiers := bareModule.identifiers ++ #[⟨"S", rfl⟩, ⟨"f", rfl⟩]
    structHandles := #[⟨⟨0⟩, ⟨1⟩, ⟨0⟩, []⟩]
    functionHandles := #[⟨⟨0⟩, ⟨2⟩, ⟨0⟩, ⟨0⟩, []⟩]
    signatures := #[[]]
    structDefinitions := #[⟨⟨0⟩, .native⟩]
    functionDefinitions := #[⟨⟨0⟩, .public, false, [], some ⟨⟨0⟩, [⟨.ret, ()⟩]⟩⟩] }

def definedBytes : List UInt8 :=
  [0xA1, 0x1C, 0xEB, 0x0B, 6, 0, 0, 0, 8, 7, 0, 6, 1, 6, 2, 8, 8, 32, 2, 40, 4, 3, 44, 5, 5, 49, 1,
    10, 50, 2, 12, 52, 7, 1, 0x4D, 1, 0x53, 1, 0x66, 0, 0] ++
    List.replicate 32 0 ++ [0, 1, 0, 0, 0, 2, 0, 0, 0, 0, 0, 1, 0, 1, 0, 0, 0, 1, 2, 0]

/-- The summary of a module with a struct and a function shows their names. -/
theorem looked_up_entries_exist_defined :
    Template.deserialize definedBytes = .ok definedModule ∧
      labelled "Module" "M" ++
          labelled "Address" ("0x" ++ Text.Hex.encode (List.replicate 32 0)) <+:
        summary definedModule definedBytes ∧
      (∀ definition ∈ definedModule.structDefinitions.toList,
        structName definedModule definition = "S") ∧
      ∀ definition ∈ definedModule.functionDefinitions.toList,
        functionName definedModule definition = "f" := by
  have hModule : Template.deserialize definedBytes = .ok definedModule :=
    Template.deserialize_eq_ok.mpr ⟨rfl, rfl⟩
  obtain ⟨⟨name, address, hName, hAddress, hSummary⟩, hStructs, hFunctions⟩ :=
    looked_up_entries_exist.2 definedBytes definedModule hModule
  obtain rfl : ⟨"M", rfl⟩ = name := Option.some.inj hName
  obtain rfl : ⟨List.replicate 32 0, rfl⟩ = address := Option.some.inj hAddress
  refine ⟨hModule, hSummary, ?_, ?_⟩
  · intro definition hDefinition
    obtain ⟨handle, name, hHandle, hFound, hShown⟩ := hStructs definition hDefinition
    obtain rfl := List.mem_singleton.mp hDefinition
    obtain rfl := Option.some.inj hHandle
    obtain rfl : ⟨"S", rfl⟩ = name := Option.some.inj hFound
    exact hShown
  · intro definition hDefinition
    obtain ⟨handle, name, hHandle, hFound, hShown⟩ := hFunctions definition hDefinition
    obtain rfl := List.mem_singleton.mp hDefinition
    obtain rfl := Option.some.inj hHandle
    obtain rfl : ⟨"f", rfl⟩ = name := Option.some.inj hFound
    exact hShown

end Command

end MoveModule
