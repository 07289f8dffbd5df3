import MoveModule.Json.Parser
import MoveModule.Module.Json
import MoveModule.Proofs.Json.Parser
import MoveModule.Proofs.Table.Json

/-! Modules as documents. Every module is read back from its document, valid or not, as long
as the text of the document is not nested too deep for a reader. -/
namespace MoveModule.Module

open Json

/-- A table is the list of its entries, and may be missing from a document, where it is empty. -/
theorem exact_tableFields (name : String) (kind : TableKind) : (tableFields name kind).Exact :=
  Fields.exact_withDefault kind.exact_entryForm.array name #[]

/-- Every field comes back as it was written. In other documents the tables and their order may be
missing, but not the rest. -/
theorem exact_fields : fields.Exact :=
  (Fields.exact_required (Form.exact_block 4) "magic").and
  ((Fields.exact_required Form.exact_uint32 "version").and
  ((Fields.exact_withDefault TableKind.exact_form.list "table_order" []).and
  ((exact_tableFields _ _).and ((exact_tableFields _ _).and ((exact_tableFields _ _).and
  ((exact_tableFields _ _).and ((exact_tableFields _ _).and ((exact_tableFields _ _).and
  ((exact_tableFields _ _).and ((exact_tableFields _ _).and ((exact_tableFields _ _).and
  ((exact_tableFields _ _).and ((exact_tableFields _ _).and ((exact_tableFields _ _).and
  ((exact_tableFields _ _).and ((exact_tableFields _ _).and ((exact_tableFields _ _).and
  (Fields.exact_required Index.exact_form "self_module_handle_idx"))))))))))))))))))

theorem exact_form : Module.form.Exact :=
  (exact_fields.form (by decide)).map fun _ => rfl

/-- A text that spells the document of a module is read as this module or not at all. -/
theorem read?_of_spells (module : Module) {text : String}
    (hText : Spells text (form.write module).tokens.reverse) :
    (parse? text >>= form.read?) =
      if (form.write module).nesting ≤ maxNesting then some module else none := by
  have hRead {result : Module} := @exact_form.read_write maxNesting module result
  rw [(exact_form.plain module).parse?_eq hText, Option.bind_eq_bind, Option.bind_some, Form.read?]
  split
  case isTrue hLevels => exact hRead.mpr ⟨hLevels, rfl⟩
  case isFalse hLevels =>
    rw [Option.eq_none_iff_forall_ne_some]
    exact fun result hResult => hLevels (hRead.mp hResult).1

/-- The text of a module, in either layout, is read as this very module if its arrays and
objects are nested at most 127 deep, and refused otherwise. -/
theorem read?_render (layout : Layout) (module : Module) :
    ∃ depth, textNesting? (render layout (form.write module)) = some depth ∧
      (parse? (render layout (form.write module)) >>= form.read?) =
        if depth ≤ 127 then some module else none := by
  have hText := (exact_form.plain module).spells_render layout
  exact ⟨_, (exact_form.plain module).textNesting?_eq hText, read?_of_spells module hText⟩

end MoveModule.Module
