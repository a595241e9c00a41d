import ControlStore.Geometry

set_option autoImplicit false

/-!
Decision addresses. From the lowest bit up an address holds the state code, the negative flag,
the zero flag and the opcode.
-/
namespace ControlStore

-- Powers are those of the core library, whatever else is imported beside this module.
attribute [local instance (2000)] instPowNat

/-- The fields of a decision address. -/
structure Address where
  state : UInt8
  negative : Bool
  zero : Bool
  opcode : UInt8
deriving DecidableEq, Repr

namespace Address

/-- The fields at an address. A field wider than a byte keeps its low eight bits. -/
def decode (g : Geometry) (address : Nat) : Address where
  state := UInt8.ofNat (address % g.stateSpace)
  negative := address.testBit g.stateBits
  zero := address.testBit (g.stateBits + 1)
  opcode := UInt8.ofNat (address / 2 ^ (g.stateBits + Geometry.flagBits) % g.opcodeSpace)

/-- The address of the fields. The fields are joined by `|||` and not cut to their widths, so one
that is too wide spills into its neighbours. -/
def encode (g : Geometry) (a : Address) : Nat :=
  a.opcode.toNat * 2 ^ (g.stateBits + Geometry.flagBits) |||
    (if a.zero then 2 ^ (g.stateBits + 1) else 0) |||
    (if a.negative then 2 ^ g.stateBits else 0) |||
    a.state.toNat

end Address

end ControlStore
