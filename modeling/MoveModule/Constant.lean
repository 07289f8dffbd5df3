import MoveModule.Constant.Value

/-! Entries of the constant pool. An entry holds the bytes of its value as they
are; whether they are a value of its type is a question of its own. -/
namespace MoveModule

open Binary

structure Constant where
  type : ConstantType
  value : List UInt8
deriving DecidableEq, Repr

/-- Whether bytes are a value of the type, and why not. -/
def ConstantType.checkValue (type : ConstantType) (value : List UInt8) :
    Except ConstantError Unit :=
  (ConstantValue.decode type value).map fun _ => ()

namespace Constant

/-- The value that the bytes stand for. -/
def decodeValue (constant : Constant) : Except ConstantError ConstantValue :=
  ConstantValue.decode constant.type constant.value

def codec : Codec Constant :=
  (ConstantType.codec.pair Codec.byteString).map
    (fun (type, value) => ⟨type, value⟩) (fun constant => (constant.type, constant.value))

def form : Json.Form Constant :=
  ((Json.Fields.required "type_tag" ConstantType.form).and
    (Json.Fields.required "value" Json.Form.hex)).form.map
    (fun (type, value) => ⟨type, value⟩) (fun constant => (constant.type, constant.value))

end Constant

end MoveModule
