import MoveModule.Command.Run
import MoveModule.Proofs.Template

/-! A module that is read and written again keeps all its bytes. -/
namespace MoveModule.Command

/-- Of equal bytes the command says that the file is all right. -/
theorem compareBytes_self (path : String) (bytes : List UInt8) :
    compareBytes path bytes bytes =
      ⟨[.strong (some .green) "ok", .line s!" {path} ({bytes.length} bytes)"], none⟩ := by
  rw [compareBytes, if_pos (beq_self_eq_true bytes)]

/-- Bytes that are read as a module are what the module is written as, also when the checks
are made before and after. So the command that compares the two does the same as one
that has nothing to say about a difference, whatever the files are. -/
theorem rewritten_bytes_identical :
    (∀ bytes module, Module.decode bytes = .ok module → module.encode = bytes) ∧
    (∀ bytes module, Template.deserialize bytes = .ok module →
      Template.serialize module = .ok bytes) ∧
    (∀ (m : Type → Type) [Monad m] [LawfulMonad m] (files : FileAccess m) (path : String),
      roundtripModule files path = do
        let bytes ← readModule files path
        let _ ← check (.decode path) (Template.deserialize bytes)
        return ⟨[.strong (some .green) "ok", .line s!" {path} ({bytes.length} bytes)"], none⟩) := by
  refine ⟨fun bytes module h => (Module.decode_eq_ok.mp h).2,
    fun bytes module h => Template.serialize_of_deserialize h, fun m _ _ files path => ?_⟩
  rw [roundtripModule]
  congr
  funext bytes
  cases hModule : Template.deserialize bytes with
  | error error =>
      apply ExceptT.ext
      simp only [check, ExceptT.run_bind, ExceptT.run_throw, pure_bind]
  | ok module =>
      have hAgain := Template.serialize_of_deserialize hModule
      simp only [check, hAgain, pure_bind, compareBytes_self]

/-- The file of a module with nothing but its own name and address. -/
def bareBytes : List UInt8 :=
  [0xA1, 0x1C, 0xEB, 0x0B, 6, 0, 0, 0, 3, 7, 0, 2, 1, 2, 2, 8, 4, 32, 1, 77, 0, 0] ++
    List.replicate 32 0 ++ [0]

/-- The smallest file with a name and an address goes through unchanged in every way. -/
theorem rewritten_bytes_identical_bare :
    Module.decode bareBytes = .ok bareModule ∧ bareModule.encode = bareBytes ∧
      Template.deserialize bareBytes = .ok bareModule ∧
      Template.serialize bareModule = .ok bareBytes ∧
      ∀ path : String, roundtripModule Directory.access path = (do
        let bytes ← readModule Directory.access path
        let _ ← check (.decode path) (Template.deserialize bytes)
        return ⟨[.strong (some .green) "ok", .line s!" {path} ({bytes.length} bytes)"], none⟩) := by
  have hDecode : Module.decode bareBytes = .ok bareModule := rfl
  have hModule : Template.deserialize bareBytes = .ok bareModule :=
    Template.deserialize_eq_ok.mpr ⟨hDecode, rfl⟩
  exact ⟨hDecode, rewritten_bytes_identical.1 _ _ hDecode, hModule,
    rewritten_bytes_identical.2.1 _ _ hModule,
    fun path => rewritten_bytes_identical.2.2 _ Directory.access path⟩

end MoveModule.Command
