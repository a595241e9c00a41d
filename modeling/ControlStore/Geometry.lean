import ControlStore.Schema.Error

set_option autoImplicit false

/-!
The shape of the two ROMs. A decision address holds a state code, two flags and an opcode; the
widths of the first and the last fix how many entries each ROM has.
-/
namespace ControlStore

-- Powers are those of the core library, whatever else is imported beside this module.
attribute [local instance (2000)] instPowNat

/-- The widths, in bits, of the state code and of the opcode in a decision address. -/
structure Geometry where
  stateBits : Nat
  opcodeBits : Nat
deriving DecidableEq, Repr

namespace Geometry

/-- How many flag bits stand between the state code and the opcode. -/
def flagBits : Nat := 2

/-- The widest field: state codes and opcodes are bytes. -/
def maxFieldBits : Nat := 8

/-- The geometry of a program that gives none. -/
def standard : Geometry := ⟨5, 7⟩

/-- Both widths lie in `1..8`. -/
def Valid (g : Geometry) : Prop :=
  (1 ≤ g.stateBits ∧ g.stateBits ≤ maxFieldBits) ∧
    1 ≤ g.opcodeBits ∧ g.opcodeBits ≤ maxFieldBits

instance (g : Geometry) : Decidable g.Valid := by
  unfold Valid
  infer_instance

/-- The geometry of the given widths, if it is valid. -/
def ofWidths (stateBits opcodeBits : Nat) : Except SchemaError Geometry :=
  if Valid ⟨stateBits, opcodeBits⟩ then .ok ⟨stateBits, opcodeBits⟩
  else .error (.invalidGeometry stateBits opcodeBits)

def addressBits (g : Geometry) : Nat := g.opcodeBits + flagBits + g.stateBits

def romLength (g : Geometry) : Nat := 2 ^ g.addressBits

/-- The number of state codes that an address can hold. -/
def stateSpace (g : Geometry) : Nat := 2 ^ g.stateBits

def opcodeSpace (g : Geometry) : Nat := 2 ^ g.opcodeBits

def controlLength (g : Geometry) (states : Nat) : Nat := min states g.stateSpace

theorem opcodeSpace_le (g : Geometry) (valid : g.Valid) : g.opcodeSpace ≤ 256 :=
  Nat.pow_le_pow_right (by decide) valid.2.2

end Geometry

end ControlStore
