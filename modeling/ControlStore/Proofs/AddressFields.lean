import ControlStore.Address
import ControlStore.Microcode.DecisionTable
import Mathlib.Tactic.Ring

set_option autoImplicit false

/-!
Decision addresses as sums. A field that fits its width occupies its own bits of an address, so
joining fields by `|||` is adding them at their weights, and decoding reads them off again.
-/
namespace ControlStore

open DecisionTable (slot)

namespace Geometry

/-- The address whose fields, from the lowest bit up, have the given values. -/
def joined (g : Geometry) (state : Nat) (negative zero : Bool) (opcode : Nat) : Nat :=
  state + 2 ^ g.stateBits * negative.toNat + 2 ^ (g.stateBits + 1) * zero.toNat +
    2 ^ (g.stateBits + 2) * opcode

/-- The state code stands below the opcode and the flags, which are joined as in a table slot. -/
theorem joined_eq (g : Geometry) (state : Nat) (negative zero : Bool) (opcode : Nat) :
    g.joined state negative zero opcode =
      2 ^ g.stateBits * slot opcode zero negative + state := by
  simp only [joined, slot, DecisionTable.flagPairs, Nat.pow_succ]
  ring

theorem stateSpace_le (g : Geometry) (valid : g.Valid) : g.stateSpace ≤ 256 :=
  Nat.pow_le_pow_right (by decide) valid.1.2

theorem romLength_eq (g : Geometry) : g.romLength = g.stateSpace * (4 * g.opcodeSpace) := by
  simp only [romLength, addressBits, flagBits, stateSpace, opcodeSpace, Nat.pow_add]
  ring

/-- Fields that fit their widths join to an address of the ROM. -/
theorem joined_lt (g : Geometry) {state opcode : Nat} (negative zero : Bool)
    (stateFits : state < g.stateSpace) (opcodeFits : opcode < g.opcodeSpace) :
    g.joined state negative zero opcode < g.romLength := by
  have upper : slot opcode zero negative + 1 ≤ 4 * g.opcodeSpace := by
    rw [Nat.mul_comm]
    exact (DecisionTable.slot_lt_iff opcode g.opcodeSpace zero negative).mpr opcodeFits
  have scaled := Nat.mul_le_mul_left g.stateSpace upper
  rw [joined_eq, romLength_eq]
  change g.stateSpace * _ + state < _
  rw [Nat.mul_add, Nat.mul_one] at scaled
  omega

/-- Every address of the ROM is joined from fields that fit their widths. -/
theorem exists_joined (g : Geometry) {address : Nat} (inside : address < g.romLength) :
    ∃ (state : Nat) (negative zero : Bool) (opcode : Nat),
      state < g.stateSpace ∧ opcode < g.opcodeSpace ∧
        address = g.joined state negative zero opcode := by
  let upper := address / g.stateSpace
  have positive : 0 < g.stateSpace := Nat.two_pow_pos _
  have bound : upper < 4 * g.opcodeSpace := by
    rw [romLength_eq] at inside
    exact Nat.div_lt_of_lt_mul inside
  have digits : slot (upper / 4) (upper.testBit 1) (upper.testBit 0) = upper := by
    rw [slot, DecisionTable.flagPairs, Nat.toNat_testBit, Nat.toNat_testBit]
    omega
  have whole : address = g.joined (address % g.stateSpace) (upper.testBit 0) (upper.testBit 1)
      (upper / 4) := by
    rw [joined_eq, digits]
    exact (Nat.div_add_mod address g.stateSpace).symm
  exact ⟨_, _, _, _, Nat.mod_lt _ positive, by omega, whole⟩

end Geometry

namespace Address

private theorem flag_part (k : Nat) (flag : Bool) :
    (if flag then 2 ^ k else 0) = 2 ^ k * flag.toNat := by
  cases flag <;> simp

private theorem flag_lt (k : Nat) (flag : Bool) : 2 ^ k * flag.toNat < 2 ^ (k + 1) := by
  have positive := Nat.two_pow_pos k
  cases flag <;> simp only [Bool.toNat_false, Bool.toNat_true, Nat.pow_succ] <;> omega

/-- Joining a state code that fits by `|||` is adding all fields at their weights. -/
theorem encode_eq_joined (g : Geometry) (a : Address) (stateFits : a.state.toNat < g.stateSpace) :
    a.encode g = g.joined a.state.toNat a.negative a.zero a.opcode.toNat := by
  have zeroAbove : 2 ^ (g.stateBits + 2) * a.opcode.toNat + 2 ^ (g.stateBits + 1) * a.zero.toNat =
      2 ^ (g.stateBits + 1) * (2 * a.opcode.toNat + a.zero.toNat) := by
    simp only [Nat.pow_succ]
    ring
  have negativeAbove : 2 ^ (g.stateBits + 1) * (2 * a.opcode.toNat + a.zero.toNat) +
        2 ^ g.stateBits * a.negative.toNat =
      2 ^ g.stateBits * slot a.opcode.toNat a.zero a.negative := by
    simp only [slot, DecisionTable.flagPairs, Nat.pow_succ]
    ring
  -- One field at a time, from the opcode down: each fits below the weight of what is above it.
  rw [Geometry.joined_eq, encode, flag_part, flag_part, Nat.mul_comm a.opcode.toNat,
    show g.stateBits + Geometry.flagBits = g.stateBits + 2 from rfl,
    ← Nat.two_pow_add_eq_or_of_lt (flag_lt _ a.zero), zeroAbove,
    ← Nat.two_pow_add_eq_or_of_lt (flag_lt _ a.negative), negativeAbove,
    ← Nat.two_pow_add_eq_or_of_lt stateFits]

/-- Decoding a sum reads its fields off; what does not fit a byte is cut. -/
theorem decode_joined (g : Geometry) {state opcode : Nat} (negative zero : Bool)
    (stateFits : state < g.stateSpace) (opcodeFits : opcode < g.opcodeSpace) :
    decode g (g.joined state negative zero opcode) =
      ⟨UInt8.ofNat state, negative, zero, UInt8.ofNat opcode⟩ := by
  let upper := slot opcode zero negative
  have bits (j : Nat) : (2 ^ g.stateBits * upper + state).testBit (g.stateBits + j) =
      upper.testBit j := by
    rw [Nat.testBit_two_pow_mul_add upper stateFits]
    simp
  have negativeBit := (bits 0).trans (DecisionTable.slot_testBit_zero opcode zero negative)
  have zeroBit := (bits 1).trans (DecisionTable.slot_testBit_one opcode zero negative)
  have stateField : (2 ^ g.stateBits * upper + state) % g.stateSpace = state := by
    rw [← Geometry.stateSpace, Nat.mul_add_mod, Nat.mod_eq_of_lt stateFits]
  have opcodeField : (2 ^ g.stateBits * upper + state) / 2 ^ (g.stateBits + Geometry.flagBits) =
      opcode := by
    have below : state / 2 ^ g.stateBits = 0 := Nat.div_eq_of_lt stateFits
    rw [Nat.pow_add, ← Nat.div_div_eq_div_mul, Nat.mul_add_div (Nat.two_pow_pos _), below,
      Nat.add_zero]
    exact DecisionTable.slot_div opcode zero negative
  rw [Geometry.joined_eq]
  unfold decode
  rw [stateField, opcodeField, Nat.mod_eq_of_lt opcodeFits, zeroBit]
  congr 1

end Address

end ControlStore
