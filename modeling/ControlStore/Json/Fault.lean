set_option autoImplicit false

/-!
What can be wrong with JSON text, and how it is worded.
-/
namespace ControlStore.Json

/-- What can be wrong with JSON text. -/
inductive Fault where
  | unfinishedValue
  | unfinishedList
  | unfinishedMap
  | unfinishedText
  | expectedValue
  | expectedWord
  | expectedColon
  /-- An element is followed by neither a comma nor the end of its list. -/
  | expectedListEnd
  /-- A member is followed by neither a comma nor the end of its map. -/
  | expectedMapEnd
  | keyNotText
  | trailingComma
  | trailingCharacters
  | badNumber
  /-- A number is too large for a double. -/
  | numberOutOfRange
  | badEscape
  | controlCharacter
  /-- A surrogate stands where it has no leading one, or where its partner should be. -/
  | loneSurrogate
  /-- A leading surrogate is not followed by an escape. -/
  | openSurrogate
  | tooDeep
deriving DecidableEq, Repr

/-- The text shown for a fault. -/
def Fault.message : Fault → String
  | unfinishedValue => "EOF while parsing a value"
  | unfinishedList => "EOF while parsing a list"
  | unfinishedMap => "EOF while parsing an object"
  | unfinishedText => "EOF while parsing a string"
  | expectedValue => "expected value"
  | expectedWord => "expected ident"
  | expectedColon => "expected `:`"
  | expectedListEnd => "expected `,` or `]`"
  | expectedMapEnd => "expected `,` or `\x7d`"
  | keyNotText => "key must be a string"
  | trailingComma => "trailing comma"
  | trailingCharacters => "trailing characters"
  | badNumber => "invalid number"
  | numberOutOfRange => "number out of range"
  | badEscape => "invalid escape"
  | controlCharacter => "control character (\\u0000-\\u001F) found while parsing a string"
  | loneSurrogate => "lone leading surrogate in hex escape"
  | openSurrogate => "unexpected end of hex escape"
  | tooDeep => "recursion limit exceeded"

end ControlStore.Json
