import MoveModule.Ability
import MoveModule.Signature

/-! Handles, which name things that this or another module declares, and
instantiations, which give type arguments to generic things. -/
namespace MoveModule

open Binary

/-- A module by its address and its name. -/
structure ModuleHandle where
  address : Index .addresses
  name : Index .identifiers
deriving DecidableEq, Repr

namespace ModuleHandle

def codec : Codec ModuleHandle :=
  (Index.codec.pair Index.codec).map
    (fun (address, name) => ⟨address, name⟩) (fun handle => (handle.address, handle.name))

def form : Json.Form ModuleHandle :=
  ((Json.Fields.required "address" Index.form).and
    (Json.Fields.required "name" Index.form)).form.map
    (fun (address, name) => ⟨address, name⟩) (fun handle => (handle.address, handle.name))

end ModuleHandle

structure StructTypeParameter where
  /-- What abilities an argument must have. -/
  constraints : AbilitySet
  isPhantom : Bool
deriving DecidableEq, Repr

namespace StructTypeParameter

def codec : Codec StructTypeParameter :=
  (AbilitySet.codec.pair (.flag "phantom flag")).map
    (fun (constraints, isPhantom) => ⟨constraints, isPhantom⟩)
    (fun parameter => (parameter.constraints, parameter.isPhantom))

def form : Json.Form StructTypeParameter :=
  ((Json.Fields.required "constraints" AbilitySet.form).and
    (Json.Fields.required "is_phantom" Json.Form.bool)).form.map
    (fun (constraints, isPhantom) => ⟨constraints, isPhantom⟩)
    (fun parameter => (parameter.constraints, parameter.isPhantom))

end StructTypeParameter

structure StructHandle where
  module : Index .moduleHandles
  name : Index .identifiers
  abilities : AbilitySet
  typeParameters : List StructTypeParameter
deriving DecidableEq, Repr

namespace StructHandle

def codec : Codec StructHandle :=
  (Index.codec.pair (Index.codec.pair (AbilitySet.codec.pair
    (.list StructTypeParameter.codec)))).map
    (fun (module, name, abilities, parameters) => ⟨module, name, abilities, parameters⟩)
    (fun handle => (handle.module, handle.name, handle.abilities, handle.typeParameters))

def form : Json.Form StructHandle :=
  ((Json.Fields.required "module" Index.form).and
    ((Json.Fields.required "name" Index.form).and
    ((Json.Fields.required "abilities" AbilitySet.form).and
    (Json.Fields.required "type_parameters" (.list StructTypeParameter.form))))).form.map
    (fun (module, name, abilities, parameters) => ⟨module, name, abilities, parameters⟩)
    (fun handle => (handle.module, handle.name, handle.abilities, handle.typeParameters))

end StructHandle

structure FunctionHandle where
  module : Index .moduleHandles
  name : Index .identifiers
  parameters : Index .signatures
  results : Index .signatures
  /-- What abilities the type arguments must have. -/
  typeParameters : List AbilitySet
deriving DecidableEq, Repr

namespace FunctionHandle

def codec : Codec FunctionHandle :=
  (Index.codec.pair (Index.codec.pair (Index.codec.pair (Index.codec.pair
    (.list AbilitySet.codec))))).map
    (fun (module, name, parameters, results, typeParameters) =>
      ⟨module, name, parameters, results, typeParameters⟩)
    (fun handle =>
      (handle.module, handle.name, handle.parameters, handle.results, handle.typeParameters))

def form : Json.Form FunctionHandle :=
  ((Json.Fields.required "module" Index.form).and
    ((Json.Fields.required "name" Index.form).and
    ((Json.Fields.required "parameters" Index.form).and
    ((Json.Fields.required "return" Index.form).and
    (Json.Fields.required "type_parameters" (.list AbilitySet.form)))))).form.map
    (fun (module, name, parameters, results, typeParameters) =>
      ⟨module, name, parameters, results, typeParameters⟩)
    (fun handle =>
      (handle.module, handle.name, handle.parameters, handle.results, handle.typeParameters))

end FunctionHandle

/-- A field by the struct definition that holds it and its place there. -/
structure FieldHandle where
  owner : Index .structDefinitions
  field : Index .fields
deriving DecidableEq, Repr

namespace FieldHandle

def codec : Codec FieldHandle :=
  (Index.codec.pair Index.codec).map
    (fun (owner, field) => ⟨owner, field⟩) (fun handle => (handle.owner, handle.field))

def form : Json.Form FieldHandle :=
  ((Json.Fields.required "owner" Index.form).and
    (Json.Fields.required "field" Index.form)).form.map
    (fun (owner, field) => ⟨owner, field⟩) (fun handle => (handle.owner, handle.field))

end FieldHandle

/-- An entry of a pool of generic things, with the signature of its type arguments. -/
structure Instantiation (pool : Pool) where
  generic : Index pool
  arguments : Index .signatures
deriving DecidableEq, Repr

namespace Instantiation

variable {pool : Pool}

def codec : Codec (Instantiation pool) :=
  (Index.codec.pair Index.codec).map
    (fun (generic, arguments) => ⟨generic, arguments⟩)
    (fun instantiation => (instantiation.generic, instantiation.arguments))

def form : Json.Form (Instantiation pool) :=
  ((Json.Fields.required "handle" Index.form).and
    (Json.Fields.required "type_parameters" Index.form)).form.map
    (fun (generic, arguments) => ⟨generic, arguments⟩)
    (fun instantiation => (instantiation.generic, instantiation.arguments))

end Instantiation

end MoveModule
