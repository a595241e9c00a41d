import ControlStore.Checked.Address
import ControlStore.Proofs.Matched
import ControlStore.Proofs.Registers

set_option autoImplicit false

/-!
Accesses that can be made are made. A computation that makes all its accesses runs as one without
checks, value for value and fault for fault. Addresses are taken apart and put together in registers
without a shift too far or a byte too wide, if the widths of the fields are those of bytes.
-/
namespace ControlStore

-- Powers are those of the core library, whatever else is imported beside this module.
attribute [local instance (2000)] instPowNat

namespace Checked

variable {ε α α' α'' β : Type}

/-- A checked computation makes all its accesses, tells the faults that a plain one tells, and
succeeds with a related value where that succeeds. -/
abbrev RunsAs (values : α → α' → Prop) (checked : Checked ε α) (plain : Except ε α') : Prop :=
  Matched (fun stop fault => stop = .told fault) values checked plain

theorem runsAs_tell (plain : Except ε α) : RunsAs Eq (tell plain) plain := by
  cases plain <;> exact rfl

/-- A checked computation runs as a plain one that matches another. -/
theorem RunsAs.trans {values : α → α' → Prop} {values' : α' → α'' → Prop}
    {joined : α → α'' → Prop} {checked : Checked ε α} {plain : Except ε α'}
    {plainer : Except ε α''} (runs : RunsAs values checked plain)
    (matched : Matched Eq values' plain plainer)
    (join : ∀ one two three, plainer = .ok three → values one two → values' two three →
      joined one three) : RunsAs joined checked plainer := by
  rcases runs.error_or_ok with ⟨_, fault, rfl, rfl, rfl⟩ | ⟨one, two, rfl, rfl, here⟩
  · rw [(matched.error_iff fault).mp rfl]
    exact rfl
  · obtain ⟨three, success, there⟩ := matched.exists_ok rfl
    rw [success]
    exact join one two three success here there

theorem runsAs_of_matched {values : α → α' → Prop} {first : Except ε α} {second : Except ε α'}
    (matched : Matched Eq values first second) : RunsAs values (tell first) second :=
  (runsAs_tell first).trans matched fun _ _ _ _ same held => same ▸ held

/-- No access is one that cannot be made. -/
theorem RunsAs.ne_access {values : α → α' → Prop} {checked : Checked ε α} {plain : Except ε α'}
    (runs : RunsAs values checked plain) (fault : AccessFault) :
    checked ≠ .error (.access fault) := by
  rintro rfl
  rcases runs.error_or_ok with ⟨_, _, stopped, -, rfl⟩ | ⟨_, _, impossible, -⟩
  · cases stopped
  · cases impossible

theorem RunsAs.eq_error {values : α → α' → Prop} {checked : Checked ε α} {plain : Except ε α'}
    (runs : RunsAs values checked plain) {fault : ε} (failed : plain = .error fault) :
    checked = .error (.told fault) := by
  rcases runs.error_or_ok with ⟨_, told, rfl, rfl, rfl⟩ | ⟨_, _, -, rfl, -⟩
  · cases failed
    rfl
  · cases failed

/-! ### Parts without accesses -/

@[simp] theorem tell_error (fault : ε) :
    tell (.error fault : Except ε α) = .error (.told fault) := rfl

theorem tell_bind (first : Except ε α) (next : α → Except ε β) :
    tell (first >>= next) = tell first >>= fun value => tell (next value) := by
  cases first <;> rfl

theorem tell_map (f : α → β) (result : Except ε α) : tell (f <$> result) = f <$> tell result := by
  cases result <;> rfl

theorem tell_mapM (check : α → Except ε β) (items : List α) :
    tell (items.mapM check) = items.mapM fun item => tell (check item) := by
  induction items with
  | nil => rfl
  | cons item rest ih =>
      rw [List.mapM_cons, List.mapM_cons, tell_bind, ← ih]
      congr 1
      funext value
      exact tell_map (value :: ·) _

/-! ### Accesses that can be made -/

@[simp] theorem ok_bind (value : α) (next : α → Checked ε β) :
    ((.ok value : Checked ε α) >>= next) = next value := rfl

theorem mapM_ok {check : α → Checked ε β} {f : α → β} {items : List α}
    (each : ∀ item ∈ items, check item = .ok (f item)) : items.mapM check = .ok (items.map f) := by
  induction items with
  | nil => rfl
  | cons item rest ih =>
      obtain ⟨here, behind⟩ := List.forall_mem_cons.mp each
      rw [List.mapM_cons, here, ok_bind, ih behind]
      rfl

theorem read_of_lt {items : Array α} {place : Nat} (inside : place < items.size) :
    (read items place : Checked ε α) = .ok items[place] := dif_pos inside

theorem read_of_getElem? {items : Array α} {place : Nat} {item : α}
    (held : items[place]? = some item) : (read items place : Checked ε α) = .ok item := by
  obtain ⟨inside, rfl⟩ := Array.getElem?_eq_some_iff.mp held
  exact read_of_lt inside

theorem write_of_lt {items : Array α} {place : Nat} (inside : place < items.size) (item : α) :
    (write items place item : Checked ε (Array α)) = .ok (items.set place item) := dif_pos inside

theorem front_of_le {items : Array α} {length : Nat} (inside : length ≤ items.size) :
    (front items length : Checked ε (Array α)) = .ok (items.take length) := if_pos inside

theorem shiftLeft_of_lt {width distance : Nat} (word : BitVec width) (room : distance < width) :
    (shiftLeft word distance : Checked ε (BitVec width)) = .ok (word <<< distance) := if_pos room

theorem shiftRight_of_lt {width distance : Nat} (word : BitVec width) (room : distance < width) :
    (shiftRight word distance : Checked ε (BitVec width)) = .ok (word >>> distance) := if_pos room

theorem narrow_of_lt {value : Nat} (fits : value < UInt8.size) :
    (narrow value : Checked ε UInt8) = .ok (UInt8.ofNat value) := if_pos fits

theorem power_of_lt {bits : Nat} (room : bits < 64) :
    (power bits : Checked ε (BitVec 64)) = .ok (BitVec.ofNat 64 (2 ^ bits)) := by
  rw [power, shiftLeft_of_lt _ room]
  congr 1
  apply BitVec.eq_of_toNat_eq
  rw [BitVec.toNat_shiftLeft, BitVec.toNat_ofNat, Nat.shiftLeft_eq]
  exact congrArg (· % 2 ^ 64) (Nat.one_mul _)

theorem toNat_power {bits : Nat} (room : bits < 64) :
    (BitVec.ofNat 64 (2 ^ bits)).toNat = 2 ^ bits := by
  rw [BitVec.toNat_ofNat]
  exact Nat.mod_eq_of_lt (Nat.pow_lt_pow_right (by decide) room)

/-! ### Addresses -/

/-- The mask of a field, made by a shift. -/
theorem power_sub_one (bits : Nat) :
    BitVec.ofNat 64 (2 ^ bits) - 1 = BitVec.ofNat 64 (2 ^ bits - 1) := by
  have split : 2 ^ bits = 2 ^ bits - 1 + 1 := (Nat.sub_add_cancel (Nat.two_pow_pos bits)).symm
  calc BitVec.ofNat 64 (2 ^ bits) - 1
      = BitVec.ofNat 64 (2 ^ bits - 1 + 1) - 1 := by rw [← split]
    _ = BitVec.ofNat 64 (2 ^ bits - 1) := by rw [BitVec.ofNat_add]; exact BitVec.add_sub_cancel _ _

/-- What is left under the mask of a field that is no wider than a byte is kept whole. -/
theorem masked_lt (word : BitVec 64) {bits : Nat} (byte : bits ≤ Geometry.maxFieldBits) :
    (word &&& BitVec.ofNat 64 (2 ^ bits - 1)).toNat < UInt8.size := by
  rw [toNat_and_ones word (Nat.le_trans byte (by decide))]
  exact Nat.lt_of_lt_of_le (Nat.mod_lt _ (Nat.two_pow_pos bits))
    (Nat.pow_le_pow_right (by decide) byte)

variable {g : Geometry}

/-- Decoding makes no shift too far, and both fields fit their bytes. -/
theorem decode_eq (valid : g.Valid) (address : BitVec 64) :
    (decode g address : Checked ε Address) = .ok (Address.decode g address.toNat) := by
  obtain ⟨⟨-, states⟩, -, opcodes⟩ := valid
  have narrow8 : Geometry.maxFieldBits = 8 := rfl
  have two : Geometry.flagBits = 2 := rfl
  have stateRoom : g.stateBits < 64 := by omega
  have opcodeRoom : g.opcodeBits < 64 := by omega
  have zeroRoom : g.stateBits + 1 < 64 := by omega
  have aboveRoom : g.stateBits + Geometry.flagBits < 64 := by omega
  rw [← Address.decodeRegister_eq (Nat.le_of_lt stateRoom) (Nat.le_of_lt opcodeRoom), decode]
  simp only [power_of_lt stateRoom, power_of_lt opcodeRoom, ok_bind, power_sub_one,
    narrow_of_lt (masked_lt _ states), narrow_of_lt (masked_lt _ opcodes),
    shiftRight_of_lt address stateRoom, shiftRight_of_lt address zeroRoom,
    shiftRight_of_lt address aboveRoom]
  rfl

/-- Without valid widths the checks fail: an opcode of nine bits is no byte. -/
example : (decode ⟨5, 9⟩ (BitVec.ofNat 64 0xFFFF) : Checked Empty Address) =
    .error (.access (.tooWide 0x1FF)) := rfl

theorem flag_of_lt (set : Bool) {bit : Nat} (room : bit < 64) :
    (flag set bit : Checked ε (BitVec 64)) = .ok (if set then (1 : BitVec 64) <<< bit else 0) := by
  cases set with
  | false => rfl
  | true => exact shiftLeft_of_lt 1 room

/-- Encoding makes no shift too far and loses no bit. -/
theorem encode_eq (valid : g.Valid) (a : Address) :
    ∃ word, (encode g a : Checked ε (BitVec 64)) = .ok word ∧ word.toNat = a.encode g := by
  have narrow8 : Geometry.maxFieldBits = 8 := rfl
  have two : Geometry.flagBits = 2 := rfl
  have states := valid.1.2
  have stateRoom : g.stateBits < 64 := by omega
  have zeroRoom : g.stateBits + 1 < 64 := by omega
  have aboveRoom : g.stateBits + Geometry.flagBits < 64 := by omega
  refine ⟨a.encodeRegister g, ?_, Address.toNat_encodeRegister (by omega) a⟩
  rw [encode]
  simp only [shiftLeft_of_lt _ aboveRoom, flag_of_lt _ zeroRoom, flag_of_lt _ stateRoom, ok_bind]
  rfl

end Checked

end ControlStore
