import ControlStore.Hex

set_option autoImplicit false

/-!
What can be wrong with the opcodes and defaults of a schema, and how it is worded.
-/
namespace ControlStore

/-- Why a schema cannot be built or answer a question. -/
inductive SchemaError where
  | invalidGeometry (stateBits opcodeBits : Nat)
  | duplicateOpcode (symbol : String)
  | duplicateCode (code : UInt8) (first second : String)
  /-- A code needs more bits than an opcode has. -/
  | codeOutOfRange (symbol : String) (code bits : Nat)
  | unknownOpcode (symbol : String)
  | unknownField (name : String)
deriving DecidableEq, Repr

/-- The text shown for an error. -/
def SchemaError.message : SchemaError → String
  | .invalidGeometry stateBits opcodeBits =>
      s!"invalid ROM geometry: state_bits={stateBits}, opcode_bits={opcodeBits} " ++
        "(each must be 1..=8)"
  | .duplicateOpcode symbol => s!"opcode '{symbol}' declared more than once"
  | .duplicateCode code first second =>
      "opcode code 0x" ++ String.ofList (Hex.fixed 2 code.toNat) ++
        s!" assigned to both '{first}' and '{second}'"
  | .codeOutOfRange symbol code bits =>
      s!"opcode '{symbol}' code 0x" ++ String.ofList (Hex.shortest code) ++
        s!" does not fit in {bits} bits"
  | .unknownOpcode symbol => s!"unknown opcode '{symbol}'"
  | .unknownField name => s!"unknown control field '{name}'"

end ControlStore
