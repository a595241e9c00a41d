import ControlStore.Proofs.AddressFields
import ControlStore.Proofs.WordFields

set_option autoImplicit false

/-!
Addresses and control words in registers of a fixed width, by shifts, masks and joins. All fields
have room in the registers, so that a shift loses no bit, and a register holds what the arithmetic
of the model says.
-/
namespace ControlStore

-- Powers are those of the core library, whatever else is imported beside this module.
attribute [local instance (2000)] instPowNat

/-! ### Shifts and masks -/

section

variable {width : Nat} {word : BitVec width} {bits : Nat}

/-- A mask of ones leaves the low bits. -/
theorem toNat_and_ones (word : BitVec width) (room : bits ≤ width) :
    (word &&& BitVec.ofNat width (2 ^ bits - 1)).toNat = word.toNat % 2 ^ bits := by
  have small : 2 ^ bits - 1 < 2 ^ width := Nat.lt_of_lt_of_le
    (Nat.sub_lt (Nat.two_pow_pos bits) Nat.one_pos) (Nat.pow_le_pow_right Nat.two_pos room)
  rw [BitVec.toNat_and, BitVec.toNat_ofNat, Nat.mod_eq_of_lt small, Nat.and_two_pow_sub_one_eq_mod]

/-- A shift within the room above a value loses no bit. -/
theorem toNat_shiftLeft_room (small : word.toNat < 2 ^ bits) {k : Nat} (room : bits + k ≤ width) :
    (word <<< k).toNat = word.toNat * 2 ^ k := by
  have scaled : word.toNat * 2 ^ k < 2 ^ (bits + k) := by
    rw [Nat.pow_add]
    exact Nat.mul_lt_mul_of_pos_right small (Nat.two_pow_pos k)
  have inside := Nat.lt_of_lt_of_le scaled (Nat.pow_le_pow_right Nat.two_pos room)
  rw [BitVec.toNat_shiftLeft, Nat.shiftLeft_eq, Nat.mod_eq_of_lt inside]

end

namespace Address

/-- The fields at an address in a register. -/
def decodeRegister (g : Geometry) (address : BitVec 64) : Address where
  state := UInt8.ofNat (address &&& BitVec.ofNat 64 (g.stateSpace - 1)).toNat
  negative := ((address >>> g.stateBits) &&& 1) == 1
  zero := ((address >>> (g.stateBits + 1)) &&& 1) == 1
  opcode := UInt8.ofNat
    ((address >>> (g.stateBits + Geometry.flagBits)) &&& BitVec.ofNat 64 (g.opcodeSpace - 1)).toNat

/-- The address of the fields, built in a register. -/
def encodeRegister (g : Geometry) (a : Address) : BitVec 64 :=
  BitVec.ofNat 64 a.opcode.toNat <<< (g.stateBits + Geometry.flagBits) |||
    (if a.zero then (1 : BitVec 64) <<< (g.stateBits + 1) else 0) |||
    (if a.negative then (1 : BitVec 64) <<< g.stateBits else 0) |||
    BitVec.ofNat 64 a.state.toNat

private theorem shifted_bit (address : BitVec 64) (i : Nat) :
    (((address >>> i) &&& 1) == 1) = address.toNat.testBit i := by
  have low : ((address >>> i) &&& 1).toNat = address.toNat / 2 ^ i % 2 := by
    rw [BitVec.toNat_and, BitVec.toNat_ushiftRight, Nat.shiftRight_eq_div_pow]
    exact Nat.and_one_is_mod _
  rw [Nat.testBit_eq_decide_div_mod_eq, ← low, beq_eq_decide, decide_eq_decide, ← BitVec.toNat_inj]
  rfl

/-- Fields that are no wider than a register are decoded in it. -/
theorem decodeRegister_eq {g : Geometry} (state : g.stateBits ≤ 64) (opcode : g.opcodeBits ≤ 64)
    (address : BitVec 64) : decodeRegister g address = decode g address.toNat := by
  rw [decodeRegister, Geometry.stateSpace, Geometry.opcodeSpace, toNat_and_ones _ state,
    toNat_and_ones _ opcode, shifted_bit, shifted_bit, BitVec.toNat_ushiftRight,
    Nat.shiftRight_eq_div_pow]
  rfl

private theorem toNat_flag (flag : Bool) {k : Nat} (room : k < 64) :
    (if flag then (1 : BitVec 64) <<< k else 0).toNat = if flag then 2 ^ k else 0 := by
  cases flag with
  | false => rfl
  | true =>
      have small : (1 : BitVec 64).toNat < 2 ^ 1 := by decide
      have shifted := toNat_shiftLeft_room small (show 1 + k ≤ 64 by omega)
      rw [show (1 : BitVec 64).toNat = 1 from rfl, Nat.one_mul] at shifted
      exact shifted

/-- A register takes the flags and a byte above a state field that leaves room for them. -/
theorem toNat_encodeRegister {g : Geometry} (room : g.stateBits + 10 ≤ 64) (a : Address) :
    (encodeRegister g a).toNat = a.encode g := by
  have byte (value : UInt8) : (BitVec.ofNat 64 value.toNat).toNat = value.toNat := by
    rw [BitVec.toNat_ofNat]
    exact Nat.mod_eq_of_lt (Nat.lt_trans value.toNat_lt (by decide))
  have small : (BitVec.ofNat 64 a.opcode.toNat).toNat < 2 ^ 8 := by
    rw [byte]
    exact a.opcode.toNat_lt
  have above : 8 + (g.stateBits + Geometry.flagBits) ≤ 64 := by
    rw [Geometry.flagBits]
    omega
  rw [encodeRegister, BitVec.toNat_or, BitVec.toNat_or, BitVec.toNat_or,
    toNat_shiftLeft_room small above, byte, byte, toNat_flag _ (by omega), toNat_flag _ (by omega)]
  rfl

end Address

namespace ControlWord

/-- A register with the bits of one more signal below those it held. -/
def appendRegister (word : BitVec 32) (s : Signal) (value : Nat) : BitVec 32 :=
  word <<< s.width ||| (BitVec.ofNat 32 value &&& BitVec.ofNat 32 s.mask)

/-- The word of an assignment, built in a register. -/
def packRegister (a : Assignment) : BitVec 32 :=
  a.toList.foldl (fun word entry => appendRegister word entry.1 entry.2) 0

/-- The value of a signal, read from a register. -/
def extractRegister (word : BitVec 32) (s : Signal) : BitVec 32 :=
  (word >>> s.shift) &&& BitVec.ofNat 32 s.mask

theorem toNat_extractRegister (word : BitVec 32) (s : Signal) :
    (extractRegister word s).toNat = extract word.toNat s := by
  have room : s.width ≤ 32 := by cases s <;> decide
  rw [extractRegister, Signal.mask, toNat_and_ones _ room, BitVec.toNat_ushiftRight,
    Nat.shiftRight_eq_div_pow, extract]

theorem append_lt {word k : Nat} (small : word < 2 ^ k) (s : Signal) (value : Nat) :
    append word s value < 2 ^ (k + s.width) := by
  have below : value % 2 ^ s.width < 2 ^ s.width := Nat.mod_lt _ (Nat.two_pow_pos _)
  have scaled := Nat.mul_le_mul_right (2 ^ s.width) small
  rw [Nat.succ_mul] at scaled
  rw [append, Nat.pow_add]
  omega

/-- A register with room for one more signal takes it whole. -/
theorem toNat_appendRegister {word : BitVec 32} {k : Nat} (small : word.toNat < 2 ^ k) {s : Signal}
    (room : k + s.width ≤ 32) (value : Nat) :
    (appendRegister word s value).toNat = append word.toNat s value := by
  have fits : s.width ≤ 32 := Nat.le_trans (Nat.le_add_left _ k) room
  have masked : value % 2 ^ 32 % 2 ^ s.width = value % 2 ^ s.width :=
    Nat.mod_mod_of_dvd value (Nat.pow_dvd_pow 2 fits)
  have below : value % 2 ^ s.width < 2 ^ s.width := Nat.mod_lt _ (Nat.two_pow_pos _)
  rw [appendRegister, Signal.mask, BitVec.toNat_or, toNat_and_ones _ fits,
    toNat_shiftLeft_room small room, BitVec.toNat_ofNat, masked, append, Nat.mul_comm,
    Nat.two_pow_add_eq_or_of_lt below]

/-- Signals that have room in a register are packed in it as in a word. -/
theorem toNat_foldl_appendRegister (a : Assignment) {signals : List Signal} {word : BitVec 32}
    {k : Nat} (small : word.toNat < 2 ^ k) (room : k + widths signals ≤ 32) :
    (signals.foldl (fun held s => appendRegister held s (a.get s)) word).toNat =
      packAfter word.toNat a signals := by
  induction signals generalizing word k with
  | nil => rfl
  | cons s rest ih =>
      rw [widths_cons, ← Nat.add_assoc] at room
      have step := toNat_appendRegister small (Nat.le_trans (Nat.le_add_right _ _) room) (a.get s)
      have next := append_lt small s (a.get s)
      rw [← step] at next
      rw [List.foldl_cons, ih next room, step]
      rfl

theorem toNat_packRegister (a : Assignment) : (packRegister a).toNat = pack a := by
  have room : 0 + widths Signal.layout ≤ 32 := by decide
  rw [packRegister, Assignment.toList, List.foldl_map, pack_eq_packAfter]
  exact toNat_foldl_appendRegister a (Nat.two_pow_pos 0) room

end ControlWord

end ControlStore
