import ControlStore.Display
import ControlStore.Json.Number
import ControlStore.Json.Tree

set_option autoImplicit false

/-!
What can be wrong with a program document, and how it is worded.
-/
namespace ControlStore.Document

/-- What a part of a document should be. -/
inductive Expected where
  | number
  | text
  | map
  | list
  | document
  | state
  | geometry
deriving DecidableEq, Repr

/-- The words for what is expected. -/
def Expected.words : Expected → String
  | number => "u32"
  | text => "a string"
  | map => "a map"
  | list => "a sequence"
  | document => "struct ProgramFile"
  | state => "struct StateEntry"
  | geometry => "struct RomGeometry"

/-- The names of a part's fields, in their order. -/
def Expected.fields : Expected → List String
  | document => ["geometry", "opcodes", "defaults", "states"]
  | state => ["name", "control", "next"]
  | geometry => ["state_bits", "opcode_bits"]
  | _ => []

/-- What stands in a place that wants something else. -/
inductive Found where
  | null
  | flag (on : Bool)
  | integer (value : Int)
  | decimal
  | text (text : String)
  | list
  | map
deriving DecidableEq, Repr

/-- The words for what was found. -/
def Found.words : Found → String
  | null => "null"
  | flag on => s!"boolean `{on}`"
  | integer value => s!"integer `{value}`"
  | decimal => "floating point"
  | text content => "string " ++ Display.quoted content
  | list => "sequence"
  | map => "map"

/-- Why a text is no program document. -/
inductive Fault where
  | json (fault : Json.Fault)
  | wrongKind (found : Found) (expected : Expected)
  | outOfRange (value : Int)
  /-- A control value is neither a strobe nor a number of 32 bits. -/
  | noControlValue
  | missingField (name : String)
  | duplicateField (name : String)
  /-- A name is none of the fields of its part. -/
  | unknownField (name : String) (part : Expected)
  /-- A part written as a list ends before a field that must be there. -/
  | tooShort (position : Nat) (part : Expected)
deriving DecidableEq, Repr

/-- The text shown for a fault. -/
def Fault.message : Fault → String
  | json fault => fault.message
  | wrongKind found expected => s!"invalid type: {found.words}, expected {expected.words}"
  | outOfRange value => s!"invalid value: integer `{value}`, expected {Expected.number.words}"
  | noControlValue => "data did not match any variant of untagged enum ControlValue"
  | missingField name => s!"missing field `{name}`"
  | duplicateField name => s!"duplicate field `{name}`"
  | unknownField name part =>
      s!"unknown field `{name}`, expected one of " ++
        String.intercalate ", " (part.fields.map fun field => s!"`{field}`")
  | tooShort position part =>
      s!"invalid length {position}, expected {part.words} with {part.fields.length} elements"

end ControlStore.Document
