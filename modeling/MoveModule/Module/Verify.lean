import MoveModule.Module.Basic

/-! What is checked of a module as a whole: every index into a table leads to an
entry, no name occurs twice and every constant is a value of its type. A type that
gives arguments to a struct gives as many as the struct takes. The arguments are not
counted where a type names a struct without any, or where an entry of the table of
struct instantiations gives them. Type parameters are held against their number in
the types of functions, fields and vector instructions, but not in those that other
instructions give as arguments. Whether the code is well typed is not looked at.
The checks are made in a fixed order, and the first that fails is reported. -/
namespace MoveModule

/-- Where in a module something was found. -/
inductive Location
  | self
  | moduleHandle (place : Nat)
  | friend (place : Nat)
  | structHandle (place : Nat)
  | functionHandle (place : Nat)
  | signature (place : Nat)
  | structDefinition (place : Nat)
  | field (struct place : Nat)
  | structInstantiation (place : Nat)
  | functionInstantiation (place : Nat)
  | fieldInstantiation (place : Nat)
  | fieldHandle (place : Nat)
  | functionDefinition (place : Nat)
  | instruction (function place : Nat)
deriving DecidableEq, Repr

def Location.display : Location → String
  | self => "self module handle"
  | moduleHandle place => s!"module handle {place}"
  | friend place => s!"friend declaration {place}"
  | structHandle place => s!"struct handle {place}"
  | functionHandle place => s!"function handle {place}"
  | signature place => s!"signature {place}"
  | structDefinition place => s!"struct definition {place}"
  | field struct place => s!"struct definition {struct}, field {place}"
  | structInstantiation place => s!"struct instantiation {place}"
  | functionInstantiation place => s!"function instantiation {place}"
  | fieldInstantiation place => s!"field instantiation {place}"
  | fieldHandle place => s!"field handle {place}"
  | functionDefinition place => s!"function definition {place}"
  | instruction function place => s!"function definition {function}, instruction {place}"

inductive VerifyError
  | invalidMagic (magic : Block 4)
  | unsupportedVersion (version : UInt32)
  /-- A table has more entries than sixteen bits can tell apart. -/
  | tableTooLarge (kind : TableKind) (size : Nat)
  | indexOutOfBounds (pool : Pool) (index size : Nat) (location : Location)
  /-- A generic struct does not get as many type arguments as it takes. -/
  | typeArgumentCount (handle expected actual : Nat) (location : Location)
  | duplicateIdentifier (name : Identifier)
  | constantEncoding (index : Nat) (source : ConstantError)
  /-- An entry was asked for that no check before has shown to be there. -/
  | unguardedIndex (index size : Nat)
deriving DecidableEq

/-- The most entries that a table may have. -/
def maxTableSize : Nat := 65536

namespace VerifyError

def message : VerifyError → String
  | invalidMagic magic => s!"Invalid magic number {Text.Hex.encode magic.val}"
  | unsupportedVersion version => s!"Unsupported version: {version}"
  | tableTooLarge kind size =>
      s!"Table {kind.display} has {size} entries, more than {maxTableSize}"
  | indexOutOfBounds pool index size location =>
      s!"{pool.entryName} index {index} out of bounds (pool size {size}) in {location.display}"
  | typeArgumentCount handle expected actual location =>
      s!"Struct handle {handle} takes {expected} type argument(s), got {actual} in " ++
        location.display
  | duplicateIdentifier name => s!"Duplicate identifier {Text.quoted name.text}"
  | constantEncoding index source =>
      s!"Constant {index} has an invalid value: {source.message}"
  | unguardedIndex index size =>
      s!"index {index} is outside of a table with {size} entries"

/-- The messages of the errors behind this one, the nearest first. -/
def sources : VerifyError → List String
  | constantEncoding _ source => source.message :: source.sources
  | _ => []

end VerifyError

/-- The first entry that is equal to one before it. -/
def firstRepeat? {α : Type} [DecidableEq α] (seen : List α) : List α → Option α
  | [] => none
  | entry :: rest => if entry ∈ seen then some entry else firstRepeat? (entry :: seen) rest

namespace Verify

/-- A check that passes with a value or says what is wrong. -/
abbrev Check (α : Type) := Except VerifyError α

def require (condition : Bool) (error : VerifyError) : Check Unit :=
  if condition then .ok () else .error error

/-- An index has to be below the size of its pool. -/
def within (pool : Pool) (index size : Nat) (location : Location) : Check Unit :=
  require (index < size) (.indexOutOfBounds pool index size location)

/-- An entry that earlier checks have shown to be there. -/
def fetch {α : Type} (entries : Array α) (index : Nat) : Check α :=
  match entries[index]? with
  | some entry => .ok entry
  | none => .error (.unguardedIndex index entries.size)

/-- The entry that an index leads to, after the check that there is one. -/
def resolve {α : Type} {pool : Pool} (index : Index pool) (entries : Array α)
    (location : Location) : Check α := do
  within pool index.position entries.size location
  fetch entries index.position

/-- Checks every entry of a table, each with its place. -/
def forEntries {α : Type} (entries : Array α) (check : Nat → α → Check Unit) : Check Unit :=
  entries.toList.zipIdx.forM fun (entry, place) => check place entry

/-- One token, without the tokens nested in it. Type parameters are checked only
where it is known how many there are. -/
def node (module : Module) (typeParameters : Option Nat) (location : Location) :
    SignatureToken → Check Unit
  | .struct handle => do
      let _ ← resolve handle module.structHandles location
  | .instantiation handle arguments => do
      let struct ← resolve handle module.structHandles location
      let expected := struct.typeParameters.length
      require (arguments.length == expected)
        (.typeArgumentCount handle.position expected arguments.length location)
  | .typeParameter index =>
      match typeParameters with
      | some count => within .typeParameters index.position count location
      | none => .ok ()
  | _ => .ok ()

/-- A token with all tokens nested in it. -/
def token (module : Module) (typeParameters : Option Nat) (location : Location)
    (token : SignatureToken) : Check Unit :=
  token.preorder.forM (node module typeParameters location)

/-- All tokens of a signature. -/
def signature (module : Module) (typeParameters : Option Nat) (location : Location)
    (signature : Signature) : Check Unit :=
  signature.forM (token module typeParameters location)

def header (module : Module) : Check Unit := do
  require (module.magic = Module.magicBytes) (.invalidMagic module.magic)
  require (Module.isSupported module.version) (.unsupportedVersion module.version)

def tableSizes (module : Module) : Check Unit :=
  TableKind.canonicalOrder.forM fun kind =>
    require (module.size kind ≤ maxTableSize) (.tableTooLarge kind (module.size kind))

def identifiers (module : Module) : Check Unit :=
  match firstRepeat? [] module.identifiers.toList with
  | some name => .error (.duplicateIdentifier name)
  | none => .ok ()

def constants (module : Module) : Check Unit :=
  forEntries module.constants fun place constant =>
    (constant.type.checkValue constant.value).mapError (.constantEncoding place)

def self (module : Module) : Check Unit := do
  let _ ← resolve module.self module.moduleHandles .self

def moduleHandle (module : Module) (location : Location) (handle : ModuleHandle) :
    Check Unit := do
  let _ ← resolve handle.address module.addresses location
  let _ ← resolve handle.name module.identifiers location

def moduleHandles (module : Module) : Check Unit := do
  forEntries module.moduleHandles fun place => moduleHandle module (.moduleHandle place)
  forEntries module.friends fun place => moduleHandle module (.friend place)

def structHandles (module : Module) : Check Unit :=
  forEntries module.structHandles fun place handle => do
    let _ ← resolve handle.module module.moduleHandles (.structHandle place)
    let _ ← resolve handle.name module.identifiers (.structHandle place)

def functionHandles (module : Module) : Check Unit :=
  forEntries module.functionHandles fun place handle => do
    let location := Location.functionHandle place
    let _ ← resolve handle.module module.moduleHandles location
    let _ ← resolve handle.name module.identifiers location
    let parameters ← resolve handle.parameters module.signatures location
    let results ← resolve handle.results module.signatures location
    let count := handle.typeParameters.length
    signature module (some count) location parameters
    signature module (some count) location results

def signatures (module : Module) : Check Unit :=
  forEntries module.signatures fun place entry =>
    signature module none (.signature place) entry

def structDefinitions (module : Module) : Check Unit :=
  forEntries module.structDefinitions fun place definition => do
    let handle ← resolve definition.handle module.structHandles (.structDefinition place)
    let count := handle.typeParameters.length
    definition.fields.toList.zipIdx.forM fun (field, number) => do
      let location := Location.field place number
      let _ ← resolve field.name module.identifiers location
      token module (some count) location field.type

/-- An instantiation of an entry of the given table. -/
def instantiation {α : Type} {pool : Pool} (module : Module) (entries : Array α)
    (location : Location) (instantiation : Instantiation pool) : Check Unit := do
  let _ ← resolve instantiation.generic entries location
  let _ ← resolve instantiation.arguments module.signatures location

def instantiations (module : Module) : Check Unit := do
  forEntries module.structInstantiations fun place =>
    instantiation module module.structDefinitions (.structInstantiation place)
  forEntries module.functionInstantiations fun place =>
    instantiation module module.functionHandles (.functionInstantiation place)
  forEntries module.fieldInstantiations fun place =>
    instantiation module module.fieldHandles (.fieldInstantiation place)

def fieldHandles (module : Module) : Check Unit :=
  forEntries module.fieldHandles fun place handle => do
    let owner ← resolve handle.owner module.structDefinitions (.fieldHandle place)
    within .fields handle.field.position owner.fields.toList.length (.fieldHandle place)

/-- What an instruction needs to know about the function around it. -/
structure Frame where
  instructions : Nat
  locals : Nat
  typeParameters : Nat

/-- The type of the items of a vector, as an instruction names it. -/
def vectorType (module : Module) (frame : Frame) (location : Location)
    (index : Index .signatures) : Check Unit := do
  let tokens ← resolve index module.signatures location
  signature module (some frame.typeParameters) location tokens

/-- The operand of an instruction. -/
def operand (module : Module) (frame : Frame) (location : Location) :
    (kind : OperandKind) → kind.Value → Check Unit
  | .target, (target : Index .instructions) =>
      within .instructions target.position frame.instructions location
  | .slot, (slot : UInt8) => within .locals slot.toNat frame.locals location
  | .index .constants, (index : Index .constants) => do
      let _ ← resolve index module.constants location
  | .index .functionHandles, (index : Index .functionHandles) => do
      let _ ← resolve index module.functionHandles location
  | .index .functionInstantiations, (index : Index .functionInstantiations) => do
      let _ ← resolve index module.functionInstantiations location
  | .index .structDefinitions, (index : Index .structDefinitions) => do
      let _ ← resolve index module.structDefinitions location
  | .index .structInstantiations, (index : Index .structInstantiations) => do
      let _ ← resolve index module.structInstantiations location
  | .index .fieldHandles, (index : Index .fieldHandles) => do
      let _ ← resolve index module.fieldHandles location
  | .index .fieldInstantiations, (index : Index .fieldInstantiations) => do
      let _ ← resolve index module.fieldInstantiations location
  | .index .signatures, (index : Index .signatures) => vectorType module frame location index
  | .items, ((index, _) : Index .signatures × UInt64) => vectorType module frame location index
  | _, _ => .ok ()

/-- The body of a function with the given handle. -/
def code (module : Module) (place : Nat) (handle : FunctionHandle) (code : Code) :
    Check Unit := do
  let locals ← resolve code.locals module.signatures (.functionDefinition place)
  let count := handle.typeParameters.length
  signature module (some count) (.functionDefinition place) locals
  let parameters ← fetch module.signatures handle.parameters.position
  let frame : Frame := ⟨code.instructions.length, parameters.length + locals.length, count⟩
  code.instructions.zipIdx.forM fun (instruction, number) =>
    operand module frame (.instruction place number) instruction.opcode.operand
      instruction.operand

def functionDefinitions (module : Module) : Check Unit :=
  forEntries module.functionDefinitions fun place definition => do
    let location := Location.functionDefinition place
    let handle ← resolve definition.handle module.functionHandles location
    definition.acquires.forM fun index => do
      let _ ← resolve index module.structDefinitions location
    match definition.code with
    | some body => code module place handle body
    | none => .ok ()

end Verify

/-- All checks in their order. -/
def Module.verify (module : Module) : Except VerifyError Unit := do
  Verify.header module
  Verify.tableSizes module
  Verify.identifiers module
  Verify.constants module
  Verify.self module
  Verify.moduleHandles module
  Verify.structHandles module
  Verify.functionHandles module
  Verify.signatures module
  Verify.structDefinitions module
  Verify.instantiations module
  Verify.fieldHandles module
  Verify.functionDefinitions module

end MoveModule
