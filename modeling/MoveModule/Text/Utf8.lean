/-! Text as bytes. A byte string is text when it is valid UTF-8, and a text has
one byte string. -/
namespace MoveModule.Text

/-- The bytes of a text in UTF-8. -/
def bytes (text : String) : List UInt8 :=
  text.toByteArray.data.toList

/-- The text that these bytes spell, if they are valid UTF-8. -/
def ofBytes? (bytes : List UInt8) : Option String :=
  String.fromUTF8? ⟨bytes.toArray⟩

theorem ofBytes?_bytes (text : String) : ofBytes? (bytes text) = some text := by
  cases text with
  | ofByteArray array valid => simp [ofBytes?, bytes, String.fromUTF8?, String.fromUTF8, valid]

theorem bytes_of_ofBytes? {source : List UInt8} {text : String}
    (h : ofBytes? source = some text) : bytes text = source := by
  simp only [ofBytes?, String.fromUTF8?] at h
  split at h
  · obtain rfl := Option.some.inj h
    simp [bytes, String.fromUTF8]
  · simp at h

end MoveModule.Text
