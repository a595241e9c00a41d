import ControlStore.Checked.Access
import ControlStore.Schema

set_option autoImplicit false

/-!
Opcodes with their positions by symbol and by code. Nothing keeps the positions inside of the array
of opcodes but the way in which they are entered, so that every access is checked.
-/
namespace ControlStore.Checked

/-- Opcodes in order of declaration, their positions by symbol and by code, and the defaults. -/
structure Registry where
  geometry : Geometry
  opcodes : Array Opcode
  bySymbol : NameMap Nat
  byCode : Array (Option Nat)
  defaults : Assignment

namespace Registry

/-- Declares one more opcode, unless its symbol is known, the table of codes has no place for its
code, or the place is taken. -/
def insert (registry : Registry) (symbol : String) (code : Nat) : Checked SchemaError Registry :=
  if (registry.bySymbol.find? symbol).isSome then .error (.told (.duplicateOpcode symbol))
  else if code < registry.byCode.size then do
    match ← read registry.byCode code with
    | some position =>
        let earlier ← read registry.opcodes position
        .error (.told (.duplicateCode earlier.code earlier.symbol symbol))
    | none =>
        let byte ← narrow code
        let byCode ← write registry.byCode code (some registry.opcodes.size)
        return { registry with
          opcodes := registry.opcodes.push ⟨symbol, byte⟩
          bySymbol := registry.bySymbol.insert symbol registry.opcodes.size
          byCode := byCode }
  else .error (.told (.codeOutOfRange symbol code registry.geometry.opcodeBits))

/-- Declares opcodes from left to right. -/
def insertAll (registry : Registry) (opcodes : List (String × Nat)) :
    Checked SchemaError Registry :=
  opcodes.foldlM (fun held entry => held.insert entry.1 entry.2) registry

/-- The registry of a geometry and its opcodes, all defaults zero. The geometry is looked at before
a table is made of its widths. -/
def build (geometry : Geometry) (opcodes : List (String × Nat)) : Checked SchemaError Registry :=
  if geometry.Valid then do
    let places ← power geometry.opcodeBits
    let bare : Registry :=
      { geometry := geometry
        opcodes := #[]
        bySymbol := NameMap.empty
        byCode := Array.replicate places.toNat none
        defaults := Assignment.zero }
    bare.insertAll opcodes
  else .error (.told (.invalidGeometry geometry.stateBits geometry.opcodeBits))

/-- Changes the default of a named signal. -/
def withDefault (registry : Registry) (name : String) (value : Nat) :
    Checked SchemaError Registry :=
  match Signal.ofName? name with
  | some s => .ok { registry with defaults := registry.defaults.set s value }
  | none => .error (.told (.unknownField name))

/-- Changes defaults from left to right. -/
def withDefaults (registry : Registry) (defaults : List (String × Nat)) :
    Checked SchemaError Registry :=
  defaults.foldlM (fun held entry => held.withDefault entry.1 entry.2) registry

/-- The registry of a geometry, its opcodes and its defaults. -/
def buildWith (geometry : Geometry) (opcodes defaults : List (String × Nat)) :
    Checked SchemaError Registry :=
  build geometry opcodes >>= (·.withDefaults defaults)

/-- The position of a symbol. -/
def indexOf? (registry : Registry) (symbol : String) : Option Nat :=
  registry.bySymbol.find? symbol

/-- The position of a code; a code past the end of the table has none. -/
def indexOfCode? (registry : Registry) (code : UInt8) : Option Nat :=
  (registry.byCode[code.toNat]?).join

/-- The code of a symbol. -/
def codeOf (registry : Registry) (symbol : String) : Checked SchemaError UInt8 :=
  match registry.indexOf? symbol with
  | some position => (·.code) <$> read registry.opcodes position
  | none => .error (.told (.unknownOpcode symbol))

/-- The symbol of a code. -/
def symbolOf? {ε : Type} (registry : Registry) (code : UInt8) : Checked ε (Option String) :=
  match registry.indexOfCode? code with
  | some position => (fun opcode => some opcode.symbol) <$> read registry.opcodes position
  | none => .ok none

end Registry

end ControlStore.Checked
