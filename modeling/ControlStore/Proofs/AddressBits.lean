import ControlStore.Proofs.AddressFields
import ControlStore.Proofs.Registers

set_option autoImplicit false

/-!
Decision addresses bit by bit. Encoding puts every bit of a field at the field's weight, and what is
too wide joins its neighbours. Decoding reads from each field as many bits as it has, but no more
than a byte holds, so that encoding again keeps those bits where they were and clears the others.
-/
namespace ControlStore

-- Powers are those of the core library, whatever else is imported beside this module.
attribute [local instance (2000)] instPowNat

/-- The positions of an address that decoding keeps: the low eight bits at most of the state code
and of the opcode, and both flags. -/
def Geometry.Keeps (g : Geometry) (i : Nat) : Prop :=
  i < min g.stateBits 8 ∨ i = g.stateBits ∨ i = g.stateBits + 1 ∨
    (g.stateBits + 2 ≤ i ∧ i < g.stateBits + 2 + min g.opcodeBits 8)

instance (g : Geometry) (i : Nat) : Decidable (g.Keeps i) := by
  unfold Geometry.Keeps
  infer_instance

namespace Address

private theorem testBit_flag (k i : Nat) (flag : Bool) :
    (if flag then 2 ^ k else 0).testBit i = (flag && decide (i = k)) := by
  cases flag
  · simp
  · simp [Nat.testBit_two_pow, eq_comm]

/-- Every bit of an encoded address comes from the fields that reach its position. -/
theorem testBit_encode (g : Geometry) (a : Address) (i : Nat) :
    (a.encode g).testBit i =
      (decide (g.stateBits + 2 ≤ i) && a.opcode.toNat.testBit (i - (g.stateBits + 2)) ||
        a.zero && decide (i = g.stateBits + 1) ||
        a.negative && decide (i = g.stateBits) ||
        a.state.toNat.testBit i) := by
  rw [encode, Nat.testBit_or, Nat.testBit_or, Nat.testBit_or, testBit_flag, testBit_flag,
    Nat.testBit_mul_two_pow, Geometry.flagBits]

private theorem testBit_byte (value bits i : Nat) :
    (UInt8.ofNat (value % 2 ^ bits)).toNat.testBit i =
      (decide (i < min bits 8) && value.testBit i) := by
  rw [UInt8.toNat_ofNat', Nat.testBit_mod_two_pow, Nat.testBit_mod_two_pow, ← Bool.and_assoc,
    ← Bool.decide_and]
  congr 2
  simp only [eq_iff_iff]
  omega

private theorem byte_lt (value bits : Nat) :
    (UInt8.ofNat (value % 2 ^ bits)).toNat < 2 ^ bits := by
  rw [UInt8.toNat_ofNat']
  exact Nat.lt_of_le_of_lt (Nat.mod_le _ _) (Nat.mod_lt _ (Nat.two_pow_pos bits))

theorem testBit_decode_state (g : Geometry) (address i : Nat) :
    (decode g address).state.toNat.testBit i =
      (decide (i < min g.stateBits 8) && address.testBit i) :=
  testBit_byte address g.stateBits i

theorem testBit_decode_opcode (g : Geometry) (address i : Nat) :
    (decode g address).opcode.toNat.testBit i =
      (decide (i < min g.opcodeBits 8) && address.testBit (i + (g.stateBits + 2))) := by
  rw [← Nat.testBit_div_two_pow]
  exact testBit_byte _ g.opcodeBits i

/-- Encoding what was decoded clears the bits that decoding does not keep, and no other. -/
theorem testBit_encode_decode (g : Geometry) (address i : Nat) :
    ((decode g address).encode g).testBit i = (address.testBit i && decide (g.Keeps i)) := by
  rw [testBit_encode, testBit_decode_state, testBit_decode_opcode, decode]
  -- A position lies in one field only: below the flags, at one of them, or above them.
  have field : i < g.stateBits ∨ i = g.stateBits ∨ i = g.stateBits + 1 ∨ g.stateBits + 2 ≤ i := by
    omega
  rcases field with state | rfl | rfl | opcode
  · have kept : g.Keeps i ↔ i < min g.stateBits 8 := by
      unfold Geometry.Keeps
      omega
    simp [kept, Bool.and_comm, show ¬ g.stateBits + 2 ≤ i by omega,
      show i ≠ g.stateBits + 1 by omega, show i ≠ g.stateBits by omega]
  · have kept : g.Keeps g.stateBits := Or.inr (Or.inl rfl)
    simp [kept]
  · have kept : g.Keeps (g.stateBits + 1) := Or.inr (Or.inr (Or.inl rfl))
    simp [kept]
  · have kept : g.Keeps i ↔ i - (g.stateBits + 2) < min g.opcodeBits 8 := by
      unfold Geometry.Keeps
      omega
    simp [kept, opcode, Bool.and_comm, Nat.sub_add_cancel opcode,
      show i ≠ g.stateBits + 1 by omega, show i ≠ g.stateBits by omega,
      show ¬ i < min g.stateBits 8 by omega]

/-- Where no field is wider than a byte, decoding keeps all bits of the fields. -/
theorem encode_decode (g : Geometry) (stateByte : g.stateBits ≤ 8) (opcodeByte : g.opcodeBits ≤ 8)
    (address : Nat) : (decode g address).encode g = address % g.romLength := by
  apply Nat.eq_of_testBit_eq
  intro i
  have kept : g.Keeps i ↔ i < g.addressBits := by
    unfold Geometry.Keeps Geometry.addressBits Geometry.flagBits
    omega
  rw [testBit_encode_decode, Geometry.romLength, Nat.testBit_mod_two_pow, Bool.and_comm]
  simp only [kept]

/-- Fields are read back exactly if they fit their widths. -/
theorem decode_encode_iff (g : Geometry) (a : Address) :
    decode g (a.encode g) = a ↔
      a.state.toNat < g.stateSpace ∧ a.opcode.toNat < g.opcodeSpace := by
  constructor
  · intro same
    rw [← same]
    exact ⟨byte_lt _ g.stateBits, byte_lt _ g.opcodeBits⟩
  · rintro ⟨stateFits, opcodeFits⟩
    rw [encode_eq_joined g a stateFits, decode_joined g _ _ stateFits opcodeFits,
      UInt8.ofNat_toNat, UInt8.ofNat_toNat]

end Address

/-- Addresses and fields. Under a valid geometry encoding what was decoded is the address as far as
the ROM goes. Fields are read back exactly if the state code and the opcode fit their widths, and
their address then lies in the ROM. Under any geometry encoding what was decoded keeps the bits of
the flags and the low eight at most of the state code and the opcode, and clears all others. In
registers of 64 bits, by shifts and masks, fields of up to twenty bits are decoded and encoded the
same. -/
theorem encode_inverts_decode (g : Geometry) :
    (g.Valid → ∀ address, (Address.decode g address).encode g =
      address % 2 ^ (g.opcodeBits + 2 + g.stateBits)) ∧
    (∀ a : Address, Address.decode g (a.encode g) = a ↔
      a.state.toNat < 2 ^ g.stateBits ∧ a.opcode.toNat < 2 ^ g.opcodeBits) ∧
    (∀ a : Address, a.state.toNat < 2 ^ g.stateBits → a.opcode.toNat < 2 ^ g.opcodeBits →
      a.encode g < 2 ^ (g.opcodeBits + 2 + g.stateBits)) ∧
    (∀ address i, ((Address.decode g address).encode g).testBit i =
      (address.testBit i && decide (g.Keeps i))) ∧
    (g.stateBits ≤ 20 → g.opcodeBits ≤ 20 →
      (∀ address : BitVec 64,
        Address.decodeRegister g address = Address.decode g address.toNat) ∧
      ∀ a : Address, (Address.encodeRegister g a).toNat = a.encode g) := by
  refine ⟨?_, Address.decode_encode_iff g, ?_, Address.testBit_encode_decode g, ?_⟩
  · intro valid
    exact Address.encode_decode g valid.1.2 valid.2.2
  · intro a stateFits opcodeFits
    rw [Address.encode_eq_joined g a stateFits]
    exact g.joined_lt _ _ stateFits opcodeFits
  · intro state opcode
    exact ⟨Address.decodeRegister_eq (by omega) (by omega),
      Address.toNat_encodeRegister (by omega)⟩

/-- Under the standard geometry the low fourteen bits of an address are kept; fields that fit are
read back from below that, and a state code of 32 is not. Of a state field of twenty bits the low
eight are kept, and the two flags behind it; a register decodes it the same. -/
theorem encode_inverts_decode_standard :
    (Address.decode ⟨5, 7⟩ 0xFFFF607F).encode ⟨5, 7⟩ = 0x207F ∧
      Address.decode ⟨5, 7⟩ (Address.encode ⟨5, 7⟩ ⟨14, false, true, 0x40⟩) =
        ⟨14, false, true, 0x40⟩ ∧
      Address.encode ⟨5, 7⟩ ⟨14, false, true, 0x40⟩ < 2 ^ 14 ∧
      Address.decode ⟨5, 7⟩ (Address.encode ⟨5, 7⟩ ⟨32, false, true, 0x40⟩) ≠
        ⟨32, false, true, 0x40⟩ ∧
      ((Address.decode ⟨20, 0⟩ (2 ^ 25 - 1)).encode ⟨20, 0⟩).testBit 7 = true ∧
      ((Address.decode ⟨20, 0⟩ (2 ^ 25 - 1)).encode ⟨20, 0⟩).testBit 8 = false ∧
      ((Address.decode ⟨20, 0⟩ (2 ^ 25 - 1)).encode ⟨20, 0⟩).testBit 21 = true ∧
      Address.decodeRegister ⟨20, 0⟩ 0x1FFFFFF = Address.decode ⟨20, 0⟩ 0x1FFFFFF := by
  obtain ⟨addresses, fields, inside, -, -⟩ := encode_inverts_decode ⟨5, 7⟩
  obtain ⟨-, -, -, wide, registers⟩ := encode_inverts_decode ⟨20, 0⟩
  refine ⟨addresses (by decide) 0xFFFF607F, (fields _).mpr ⟨by decide, by decide⟩,
    inside _ (by decide) (by decide), ?_, ?_, ?_, ?_,
    (registers (by decide) (by decide)).1 0x1FFFFFF⟩
  · intro same
    exact absurd ((fields _).mp same).1 (by decide)
  · rw [wide]
    decide
  · rw [wide]
    decide
  · rw [wide]
    decide

end ControlStore
