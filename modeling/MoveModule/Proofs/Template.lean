import MoveModule.Proofs.Except
import MoveModule.Proofs.Module.Decode
import MoveModule.Proofs.Module.Verify
import MoveModule.Template

/-! Files of modules that pass all checks. -/
namespace MoveModule.Template

/-- A file is accepted when it is the file of a module that passes all checks. -/
theorem deserialize_eq_ok {bytes : List UInt8} {module : Module} :
    deserialize bytes = .ok module ↔
      Module.decode bytes = .ok module ∧ module.verify = .ok () := by
  simp only [deserialize, Except.bind_eq_ok, Except.mapError_eq_ok, Except.pure_eq_ok]
  constructor
  · intro h
    obtain ⟨_, hDecode, _, hVerify, rfl⟩ := h
    exact ⟨hDecode, hVerify⟩
  · intro h
    obtain ⟨hDecode, hVerify⟩ := h
    exact ⟨module, hDecode, ⟨⟩, hVerify, rfl⟩

theorem serialize_eq_ok {bytes : List UInt8} {module : Module} :
    serialize module = .ok bytes ↔ module.verify = .ok () ∧ module.encode = bytes := by
  simp only [serialize, Except.bind_eq_ok, Except.mapError_eq_ok, Except.pure_eq_ok]
  constructor
  · intro h
    obtain ⟨_, hVerify, hBytes⟩ := h
    exact ⟨hVerify, hBytes⟩
  · intro h
    obtain ⟨hVerify, hBytes⟩ := h
    exact ⟨⟨⟩, hVerify, hBytes⟩

/-- An accepted file is the one that is made of its module. -/
theorem serialize_of_deserialize {bytes : List UInt8} {module : Module}
    (h : deserialize bytes = .ok module) : serialize module = .ok bytes := by
  obtain ⟨hDecode, hVerify⟩ := deserialize_eq_ok.mp h
  exact serialize_eq_ok.mpr ⟨hVerify, (Module.decode_eq_ok.mp hDecode).2⟩

theorem canonical_of_deserialize {bytes : List UInt8} {module : Module}
    (h : deserialize bytes = .ok module) : module.Canonical :=
  (Module.decode_eq_ok.mp (deserialize_eq_ok.mp h).1).1

/-- What is written for a module that files have is read as this module. -/
theorem deserialize_of_serialize {bytes : List UInt8} {module : Module}
    (hCanonical : module.Canonical) (h : serialize module = .ok bytes) :
    deserialize bytes = .ok module := by
  obtain ⟨hVerify, hBytes⟩ := serialize_eq_ok.mp h
  exact deserialize_eq_ok.mpr ⟨Module.decode_eq_ok.mpr ⟨hCanonical, hBytes⟩, hVerify⟩

/-- Whether a module passes does not depend on the order in which it is written. -/
theorem verify_ordered (module : Module) : module.ordered.verify = module.verify := rfl

/-- The bytes that are given for a module are read as that module if and only if a reader
takes all its entries. The checks before writing do not look at this. -/
theorem deserialize_serialize_iff {module : Module} {bytes : List UInt8}
    (hBytes : serialize module = .ok bytes)
    (hSize : (module.bodies.flatMap Prod.snd).length < UInt32.size) :
    deserialize bytes = .ok { module with tableOrder := module.emissionOrder } ↔
      module.Readable := by
  obtain ⟨hVerify, rfl⟩ := serialize_eq_ok.mp hBytes
  have hSound := Module.sound_of_verify hVerify
  have hVersion := Module.isSupported_iff.mpr hSound.version
  change deserialize module.encode = .ok module.ordered ↔ _
  rw [deserialize_eq_ok, Module.decode_eq_ok, verify_ordered, ← Module.readable_ordered]
  constructor
  · intro h
    obtain ⟨⟨hCanonical, -⟩, -⟩ := h
    exact hCanonical.readable
  · intro hReadable
    have hCanonical :=
      Module.canonical_ordered hSound.magic hVersion (Module.readable_ordered.mp hReadable) hSize
    exact ⟨⟨hCanonical, module.encode_ordered⟩, hVerify⟩

/-- A module of version 5 that names an integer of sixteen bits. -/
def narrowModule : Module :=
  { bareModule with version := 5, signatures := #[[.integer .w16]] }

/-- The module is written although it is not read again. -/
theorem deserialize_serialize_iff_narrow :
    serialize narrowModule = .ok narrowModule.encode ∧ ¬ narrowModule.Readable ∧
      deserialize narrowModule.encode ≠
        .ok { narrowModule with tableOrder := narrowModule.emissionOrder } := by
  have hSignatures : Verify.signatures narrowModule = .ok () := by
    rw [Verify.signatures_eq_ok]
    simp [narrowModule, SignatureToken.StructsIn, SignatureToken.nodes]
  have hVerify : narrowModule.verify = .ok () :=
    Module.verify_eq_ok.mpr
      ⟨rfl, rfl, rfl, rfl, rfl, rfl, rfl, rfl, hSignatures, rfl, rfl, rfl, rfl⟩
  have hBytes : serialize narrowModule = .ok narrowModule.encode :=
    serialize_eq_ok.mpr ⟨hVerify, rfl⟩
  have hUnreadable : ¬ narrowModule.Readable := by
    intro hReadable
    have hToken := hReadable.signatures [.integer .w16] (by simp [narrowModule]) _
      (List.mem_singleton.mpr rfl)
    exact absurd (SignatureToken.allowedIn_integer.mp hToken.2) (by decide)
  have hSize : (narrowModule.bodies.flatMap Prod.snd).length < UInt32.size := by
    decide +kernel
  exact ⟨hBytes, hUnreadable,
    fun hRead => hUnreadable ((deserialize_serialize_iff hBytes hSize).mp hRead)⟩

end MoveModule.Template
