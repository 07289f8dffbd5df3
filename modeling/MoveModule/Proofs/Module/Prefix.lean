import MoveModule.Proofs.Module.Decode

/-! Where the file of a module ends. A module says itself how long it is, so no file of a
module is the front of another one, and bytes behind a module are always noticed. -/
namespace MoveModule.Module

open Binary

/-- What stands behind a module is refused, and the place that is named is where the module
ends. -/
theorem decode_append_of_ne_nil {module : Module} {behind : List UInt8}
    (hCanonical : module.Canonical) (hBehind : behind ≠ []) :
    decode (module.encode ++ behind) = .error (.trailingBytes module.encode.length) := by
  obtain ⟨next, hOffset, hRest, hRead⟩ :=
    read_of_isPrefix hCanonical (List.prefix_append module.encode behind)
  have hMore : next.hasMore = true := by
    rw [Cursor.hasMore_iff, hRest, List.drop_left]
    exact hBehind
  rw [decode, hRead, if_pos hMore, hOffset]

/-- Bytes that are read as a module are not read when some of the last ones are missing, nor
when others stand behind them. -/
theorem decode_prefix_free {bytes : List UInt8} {module : Module}
    (h : decode bytes = .ok module) :
    (∀ front, front <+: bytes → front ≠ bytes → ∃ error, decode front = .error error) ∧
      ∀ behind, behind ≠ [] → decode (bytes ++ behind) = .error (.trailingBytes bytes.length) := by
  obtain ⟨hCanonical, rfl⟩ := decode_eq_ok.mp h
  refine ⟨?_, fun behind hBehind => decode_append_of_ne_nil hCanonical hBehind⟩
  intro front hFront hShort
  cases hDecode : decode front with
  | error error => exact ⟨error, rfl⟩
  | ok shorter =>
      -- The shorter module would end inside of the longer one, where bytes are left over.
      obtain ⟨behind, hBytes⟩ := hFront
      obtain ⟨hShorter, rfl⟩ := decode_eq_ok.mp hDecode
      have hBehind : behind ≠ [] := by
        rintro rfl
        exact hShort (by rwa [List.append_nil] at hBytes)
      rw [← hBytes, decode_append_of_ne_nil hShorter hBehind] at h
      cases h

/-- The file of a module that consists of one name. -/
def nameBytes : List UInt8 :=
  [0xA1, 0x1C, 0xEB, 0x0B, 5, 0, 0, 0, 1, 7, 0, 2, 1, 0x4D, 0]

theorem decode_prefix_free_name :
    decode nameBytes =
        .ok { empty 5 with tableOrder := [.identifiers], identifiers := #[⟨"M", rfl⟩] } ∧
      (∃ error, decode (nameBytes.take 14) = .error error) ∧
      decode (nameBytes ++ [0]) = .error (.trailingBytes 15) := by
  have hDecode : decode nameBytes =
      .ok { empty 5 with tableOrder := [.identifiers], identifiers := #[⟨"M", rfl⟩] } := rfl
  obtain ⟨hShort, hLong⟩ := decode_prefix_free hDecode
  have hTruncated := hShort (nameBytes.take 14) (List.take_prefix 14 nameBytes) (by decide)
  exact ⟨hDecode, hTruncated, hLong [0] (List.cons_ne_nil 0 [])⟩

end MoveModule.Module
