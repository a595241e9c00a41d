import ControlStore.Address
import ControlStore.Checked.Access

set_option autoImplicit false

/-!
Decision addresses in registers, with every shift and every byte checked.
-/
namespace ControlStore.Checked

variable {ε : Type}

/-- The fields at an address. The masks are made by shifts too. -/
def decode (g : Geometry) (address : BitVec 64) : Checked ε Address := do
  let states ← power g.stateBits
  let opcodes ← power g.opcodeBits
  let state ← narrow (address &&& (states - 1)).toNat
  let negative ← shiftRight address g.stateBits
  let zero ← shiftRight address (g.stateBits + 1)
  let above ← shiftRight address (g.stateBits + Geometry.flagBits)
  let opcode ← narrow (above &&& (opcodes - 1)).toNat
  return ⟨state, (negative &&& 1) == 1, (zero &&& 1) == 1, opcode⟩

/-- The bit of a flag, if it is set. -/
def flag (set : Bool) (bit : Nat) : Checked ε (BitVec 64) :=
  if set then power bit else .ok 0

/-- The address of the fields. -/
def encode (g : Geometry) (a : Address) : Checked ε (BitVec 64) := do
  let opcode ← shiftLeft (BitVec.ofNat 64 a.opcode.toNat) (g.stateBits + Geometry.flagBits)
  let zero ← flag a.zero (g.stateBits + 1)
  let negative ← flag a.negative g.stateBits
  return opcode ||| zero ||| negative ||| BitVec.ofNat 64 a.state.toNat

end ControlStore.Checked
