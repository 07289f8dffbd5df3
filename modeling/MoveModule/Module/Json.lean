import MoveModule.Module.Basic

/-! Modules as documents. A table that is missing from a document is empty. -/
namespace MoveModule.Module

open Json

/-- The table of a field, which stands for no entries where it is missing. -/
def tableFields (name : String) (kind : TableKind) : Fields (Array kind.Entry) :=
  Fields.withDefault name #[] (Form.array kind.entryForm)

/-- The fields of a module in their order. -/
def fields :=
  (Fields.required "magic" (Form.block 4)).and
  ((Fields.required "version" Form.uint32).and
  ((Fields.withDefault "table_order" [] (Form.list TableKind.form)).and
  ((tableFields "module_handles" .moduleHandles).and
  ((tableFields "struct_handles" .structHandles).and
  ((tableFields "function_handles" .functionHandles).and
  ((tableFields "field_handles" .fieldHandles).and
  ((tableFields "friend_decls" .friends).and
  ((tableFields "struct_def_instantiations" .structInstantiations).and
  ((tableFields "function_instantiations" .functionInstantiations).and
  ((tableFields "field_instantiations" .fieldInstantiations).and
  ((tableFields "signatures" .signatures).and
  ((tableFields "identifiers" .identifiers).and
  ((tableFields "address_identifiers" .addresses).and
  ((tableFields "constant_pool" .constants).and
  ((tableFields "metadata" .metadata).and
  ((tableFields "struct_defs" .structDefinitions).and
  ((tableFields "function_defs" .functionDefinitions).and
  (Fields.required "self_module_handle_idx" (Index.form : Form (Index .moduleHandles))))))))))))))))))))

def form : Form Module :=
  fields.form.map
    (fun (magic, version, tableOrder, moduleHandles, structHandles, functionHandles,
        fieldHandles, friends, structInstantiations, functionInstantiations,
        fieldInstantiations, signatures, identifiers, addresses, constants, metadata,
        structDefinitions, functionDefinitions, self) =>
      { magic, version, tableOrder, moduleHandles, structHandles, functionHandles,
        fieldHandles, friends, structInstantiations, functionInstantiations,
        fieldInstantiations, signatures, identifiers, addresses, constants, metadata,
        structDefinitions, functionDefinitions, self })
    (fun module =>
      (module.magic, module.version, module.tableOrder, module.moduleHandles,
        module.structHandles, module.functionHandles, module.fieldHandles, module.friends,
        module.structInstantiations, module.functionInstantiations,
        module.fieldInstantiations, module.signatures, module.identifiers,
        module.addresses, module.constants, module.metadata, module.structDefinitions,
        module.functionDefinitions, module.self))

end MoveModule.Module
