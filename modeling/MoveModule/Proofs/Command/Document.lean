import MoveModule.Proofs.Command.Directory
import MoveModule.Proofs.Module.Edit
import MoveModule.Proofs.Module.Json
import MoveModule.Proofs.Template

/-! A module that is shown as a document and assembled again. A file may nest types deeper than
a document may nest its arrays and objects, so there are modules that can be shown and not be
assembled. -/
namespace MoveModule.Command

open Json

variable {module : Module} {bytes : List UInt8} {directory : Directory}

/-- What is shown of a module as a document. -/
def documentText (module : Module) : String :=
  pretty (Module.form.write module) ++ "\n"

/-- Documents are shown without any style, so colors make no difference to them. -/
theorem renderAll_documentOutput (colors : Bool) (module : Module) :
    Span.renderAll colors (documentOutput (Module.form.write module)) = documentText module := by
  simp [Span.renderAll, documentOutput, Span.line, Span.plain, Span.render, documentText]

/-- The end of the line adds nothing to the document. -/
theorem spells_documentText (module : Module) :
    Spells (documentText module) (Module.form.write module).tokens.reverse := by
  have hPrinted := (Module.exact_form.plain module).spells_render .indented
  have hLine : documentText module = (pretty (Module.form.write module)).push '\n' :=
    String.ext (by simp [documentText])
  rw [hLine]
  exact (hPrinted.push rfl rfl).spells

/-- A file that is read as a module is shown as its document, and stays as it is. -/
theorem runIn_inspect {path : String} (hBytes : directory.read path = .ok bytes)
    (hModule : Template.deserialize bytes = .ok module) :
    runIn (.inspect path true) directory =
      (⟨documentOutput (Module.form.write module), none⟩, directory) := by
  rw [runIn_eq_ofResult rfl (runIn_showModule directory path true), hBytes, Except.mapError_ok,
    Except.ok_bind, hModule, Except.mapError_ok, Except.ok_bind]
  rfl

section Assemble

variable {input output text name : String}
  (hText : directory.read input = .ok (Text.bytes text))

include hText

/-- If the text is a document of a module that can be written, the bytes of the module are what is
to be written. -/
theorem computed?_assemble_of_some (hRead : (parse? text >>= Module.form.read?) = some module)
    (hResult : Template.serialize module = .ok bytes) :
    computed? directory (.assemble input output) = some (output,
      .ok (bytes, [.line s!"Assembled {bytes.length} bytes -> {output}"])) := by
  rw [computed?, Directory.readText_of_read hText, Except.mapError_ok, Except.ok_bind, hRead]
  dsimp only
  rw [hResult, Except.mapError_ok, Except.ok_bind]
  rfl

theorem computed?_assemble_of_none (hRead : (parse? text >>= Module.form.read?) = none) :
    computed? directory (.assemble input output) =
      some (output, .error (.malformedDocument input)) := by
  rw [computed?, Directory.readText_of_read hText, Except.mapError_ok, Except.ok_bind, hRead]
  rfl

end Assemble

/-- The document is read as the module or not at all, so what is written is the file from which
the document was made. -/
theorem runIn_assemble {input output name : String}
    (hModule : Template.deserialize bytes = .ok module)
    (hText : directory.read input = .ok (Text.bytes (documentText module)))
    (hName : directory.resolve output = .ok name) :
    runIn (.assemble input output) directory =
      if (Module.form.write module).nesting ≤ maxNesting then
        (⟨[.line s!"Assembled {bytes.length} bytes -> {output}"], none⟩, directory.put name bytes)
      else (⟨[], some (.malformedDocument input)⟩, directory) := by
  have hRead := Module.read?_of_spells module (spells_documentText module)
  split
  case isTrue hLevels =>
    rw [if_pos hLevels] at hRead
    have hResult := Template.serialize_of_deserialize hModule
    exact runIn_of_computed (computed?_assemble_of_some hText hRead hResult) hName
  case isFalse hLevels =>
    rw [if_neg hLevels] at hRead
    exact runIn_of_failed (computed?_assemble_of_none hText hRead)

/-- A module is built from its document again, as the very file that was shown, if and only if
the arrays and objects of the document are nested at most 127 deep. A deeper one is refused,
although it was made from a file that is read, because files may nest types deeper than that. -/
theorem assemble_inspect_iff {bytes : List UInt8} {module : Module}
    (hModule : Template.deserialize bytes = .ok module) :
    (∀ (directory : Directory) (path : String), directory.read path = .ok bytes →
      ∃ spans, runIn (.inspect path true) directory = (⟨spans, none⟩, directory) ∧
        ∀ colors, Span.renderAll colors spans = documentText module) ∧
    ∃ depth, textNesting? (documentText module) = some depth ∧
      ∀ (directory : Directory) (input output name : String),
        directory.read input = .ok (Text.bytes (documentText module)) →
        directory.resolve output = .ok name →
          runIn (.assemble input output) directory =
            if depth ≤ 127 then
              (⟨[.line s!"Assembled {bytes.length} bytes -> {output}"], none⟩,
                directory.put name bytes)
            else (⟨[], some (.malformedDocument input)⟩, directory) := by
  refine ⟨?_, ?_⟩
  · intro directory path hBytes
    exact ⟨_, runIn_inspect hBytes hModule, fun colors => renderAll_documentOutput colors module⟩
  · refine ⟨_, (Module.exact_form.plain module).textNesting?_eq (spells_documentText module), ?_⟩
    intro directory input output name hText hName
    exact runIn_assemble hModule hText hName

/-- A type of vectors in vectors. -/
def nestedVector : Nat → SignatureToken
  | 0 => .bool
  | levels + 1 => .vector (nestedVector levels)

/-- Nested vectors of booleans have no integer that a version could lack. -/
theorem allowedIn_nestedVector (levels : Nat) (version : UInt32) :
    (nestedVector levels).AllowedIn version := by
  induction levels with
  | zero => exact SignatureToken.allowedIn_bool
  | succ levels ih => exact SignatureToken.allowedIn_vector.mpr ih

theorem structsIn_nestedVector (levels : Nat) (handles : Array StructHandle) :
    (nestedVector levels).StructsIn handles := by
  induction levels with
  | zero => simp [nestedVector, SignatureToken.StructsIn, SignatureToken.nodes]
  | succ levels ih =>
      simpa [nestedVector, SignatureToken.StructsIn, SignatureToken.nodes] using ih

/-- A module with a type that is nested deeper than a document may be. -/
def deepModule : Module :=
  { bareModule with
    tableOrder := [.identifiers, .moduleHandles, .addresses, .signatures]
    signatures := #[[nestedVector 200]] }

/-- Files may nest 256 types, so the module with 200 vectors is read and all checks pass. -/
theorem deserialize_deepModule :
    Template.deserialize deepModule.encode = .ok deepModule := by
  have hTypes {types : Signature} (hMember : types ∈ deepModule.signatures.toList)
      {type : SignatureToken} (hType : type ∈ types) : type = nestedVector 200 := by
    obtain rfl := List.mem_singleton.mp hMember
    exact List.mem_singleton.mp hType
  -- Apart from the signature the module has nothing in it that a reader could refuse.
  have hReadable : deepModule.Readable := {
    structHandles := fun _ hMember => absurd hMember List.not_mem_nil
    functionHandles := fun _ hMember => absurd hMember List.not_mem_nil
    constants := fun _ hMember => absurd hMember List.not_mem_nil
    structDefinitions := fun _ hMember => absurd hMember List.not_mem_nil
    functionDefinitions := fun _ hMember => absurd hMember List.not_mem_nil
    signatures := by
      intro types hMember type hType
      obtain rfl := hTypes hMember hType
      exact ⟨by decide +kernel, allowedIn_nestedVector 200 _⟩ }
  have hSignatures : Verify.signatures deepModule = .ok () := by
    rw [Verify.signatures_eq_ok]
    intro types hMember type hType
    obtain rfl := hTypes hMember hType
    exact structsIn_nestedVector 200 _
  have hVerify : deepModule.verify = .ok () :=
    Module.verify_eq_ok.mpr
      ⟨rfl, rfl, rfl, rfl, rfl, rfl, rfl, rfl, hSignatures, rfl, rfl, rfl, rfl⟩
  have hStorable : deepModule.Storable := ⟨rfl, rfl, by decide +kernel, hReadable⟩
  exact Template.deserialize_of_serialize (hStorable.canonical (by decide +kernel))
    (Template.serialize_eq_ok.mpr ⟨hVerify, rfl⟩)

/-- The file of the deep module, and what is shown of it. -/
def deepDirectory : Directory :=
  (Directory.put ⟨[]⟩ "d" (Text.bytes (documentText deepModule))).put "m" deepModule.encode

/-- A document that is 203 deep is shown for the file, and is refused when the file is to be built
from it. -/
theorem assemble_inspect_iff_deep :
    Template.deserialize deepModule.encode = .ok deepModule ∧
      (∃ spans, runIn (.inspect "m" true) deepDirectory = (⟨spans, none⟩, deepDirectory) ∧
        Span.renderAll false spans = documentText deepModule) ∧
      textNesting? (documentText deepModule) = some 203 ∧
      runIn (.assemble "d" "o") deepDirectory =
        (⟨[], some (.malformedDocument "d")⟩, deepDirectory) := by
  have hBytes : deepDirectory.read "m" = .ok deepModule.encode := by
    refine Directory.read_eq_ok.mpr ⟨"m", rfl, ?_⟩
    rw [deepDirectory, Directory.contents?_put, if_pos rfl]
  have hText : deepDirectory.read "d" = .ok (Text.bytes (documentText deepModule)) := by
    refine Directory.read_eq_ok.mpr ⟨"d", rfl, ?_⟩
    rw [deepDirectory, Directory.contents?_put, if_neg (by decide), Directory.contents?_put,
      if_pos rfl]
  have hNesting : textNesting? (documentText deepModule) = some 203 := by
    have hLevels : (Module.form.write deepModule).nesting = 203 := by decide +kernel
    rw [(Module.exact_form.plain _).textNesting?_eq (spells_documentText deepModule), hLevels]
  obtain ⟨hInspect, depth, hDepth, hAssemble⟩ := assemble_inspect_iff deserialize_deepModule
  obtain ⟨spans, hShown, hPrinted⟩ := hInspect deepDirectory "m" hBytes
  obtain rfl : 203 = depth := Option.some.inj (hNesting.symm.trans hDepth)
  refine ⟨deserialize_deepModule, ⟨spans, hShown, hPrinted false⟩, hNesting, ?_⟩
  exact hAssemble deepDirectory "d" "o" "o" hText rfl

end MoveModule.Command
