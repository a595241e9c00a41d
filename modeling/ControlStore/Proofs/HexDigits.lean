import ControlStore.Hex
import Mathlib.Data.List.Induction

set_option autoImplicit false

/-!
What hexadecimal digits denote. Digits stand for a value if they are its shortest spelling behind
any number of zeros, in either case; reading finds that value and no other.
-/
namespace ControlStore.Hex

-- Powers are those of the core library, whatever else is imported beside this module.
attribute [local instance (2000)] instPowNat

/-- Digits that spell a value: its shortest digits in either case, behind any number of zeros. -/
def Denotes (digits : List Char) (value : Nat) : Prop :=
  ∃ zeros, digits.map Char.toUpper = List.replicate zeros '0' ++ shortest value

/-! ### Digits -/

theorem toNat_toUpper (c : Char) :
    c.toUpper.toNat = if 97 ≤ c.toNat ∧ c.toNat ≤ 122 then c.toNat - 32 else c.toNat := by
  have lower : c.val ≥ 'a'.val ∧ c.val ≤ 'z'.val ↔ 97 ≤ c.toNat ∧ c.toNat ≤ 122 := by
    rw [ge_iff_le, UInt32.le_iff_toNat_le, UInt32.le_iff_toNat_le]
    exact Iff.rfl
  unfold Char.toUpper
  by_cases inside : 97 ≤ c.toNat ∧ c.toNat ≤ 122
  · rw [dif_pos (lower.mpr inside), if_pos inside]
    change (c.val + ('A'.val - 'a'.val)).toNat = _
    rw [UInt32.toNat_add]
    change (c.toNat + 4294967264) % 4294967296 = c.toNat - 32
    omega
  · rw [dif_neg (mt lower.mp inside), if_neg inside]

theorem toNat_digit {value : Nat} (small : value < 16) :
    (digit value).toNat = if value < 10 then 48 + value else 55 + value := by
  revert value
  decide

/-- The character of a digit's value, in its own case or in the other. -/
theorem toNat_of_digitValue? {c : Char} {value : Nat} (read : digitValue? c = some value) :
    value < 16 ∧ (c.toNat = (digit value).toNat ∨ 10 ≤ value ∧ c.toNat = value + 87) := by
  have small : value < 16 := by
    unfold digitValue? at read
    split_ifs at read <;> cases read <;> omega
  refine ⟨small, ?_⟩
  rw [toNat_digit small]
  unfold digitValue? at read
  split_ifs at read <;> cases read <;> split <;> omega

/-- A digit is the digit of its value, whatever its case. -/
theorem toUpper_eq_digit {c : Char} {value : Nat} (read : digitValue? c = some value) :
    c.toUpper = digit value := by
  obtain ⟨small, cases⟩ := toNat_of_digitValue? read
  have code := toNat_digit small
  apply Char.toNat_inj.mp
  rw [toNat_toUpper]
  split_ifs at code ⊢ <;> omega

theorem digitValue?_of_toUpper {c : Char} {value : Nat} (small : value < 16)
    (upper : c.toUpper = digit value) : digitValue? c = some value := by
  have code := congrArg Char.toNat upper
  rw [toNat_toUpper, toNat_digit small] at code
  unfold digitValue?
  split_ifs at code ⊢ <;> first | omega | (congr 1; omega)

/-! ### Fixed widths -/

theorem read?_append_singleton (digits : List Char) (last : Char) :
    read? (digits ++ [last]) =
      (read? digits).bind fun value => (digitValue? last).map (value * 16 + ·) := by
  simp [read?, List.foldlM_append]

/-- What can be read is made of digits. -/
theorem isSome_digitValue?_of_read? {digits : List Char} {value : Nat}
    (read : read? digits = some value) : ∀ c ∈ digits, (digitValue? c).isSome = true := by
  induction digits using List.reverseRecOn generalizing value with
  | nil => exact fun c member => absurd member List.not_mem_nil
  | append_singleton digits last ih =>
      rw [read?_append_singleton] at read
      obtain ⟨front, readFront, behind⟩ := Option.bind_eq_some_iff.mp read
      obtain ⟨unit, digit, -⟩ := Option.map_eq_some_iff.mp behind
      intro c member
      rcases List.mem_append.mp member with inside | same
      · exact ih readFront c inside
      · rw [List.mem_singleton.mp same, digit]
        rfl

/-- Digits are read as the value that they spell at their own width. -/
theorem read?_eq_some_iff {digits : List Char} {value : Nat} :
    read? digits = some value ↔
      digits.map Char.toUpper = fixed digits.length value ∧ value < 16 ^ digits.length := by
  -- Both sides take the last digit off: reading folds from the front, and `fixed` divides.
  induction digits using List.reverseRecOn generalizing value with
  | nil =>
      simp only [read?, List.foldlM_nil, Option.pure_def, Option.some.injEq, List.map_nil,
        List.length_nil, fixed, true_and, Nat.pow_zero]
      omega
  | append_singleton digits last ih =>
      rw [read?_append_singleton, List.map_append, List.length_append, List.length_singleton, fixed,
        Nat.pow_succ]
      constructor
      · intro success
        obtain ⟨front, read, behind⟩ := Option.bind_eq_some_iff.mp success
        obtain ⟨unit, digit, rfl⟩ := Option.map_eq_some_iff.mp behind
        obtain ⟨spelled, bound⟩ := ih.mp read
        have small := (toNat_of_digitValue? digit).1
        have whole : (front * 16 + unit) / 16 = front := by omega
        have last : (front * 16 + unit) % 16 = unit := by omega
        refine ⟨?_, by omega⟩
        rw [whole, last, ← spelled, ← toUpper_eq_digit digit, List.map_singleton]
      · intro spelled
        obtain ⟨same, bound⟩ := spelled
        obtain ⟨front, back⟩ := List.append_inj same (by simp [fixed_length])
        have read := ih.mpr ⟨front, by omega⟩
        have digit := digitValue?_of_toUpper (Nat.mod_lt value (by decide))
          (List.singleton_inj.mp back)
        rw [read, Option.bind_some, digit, Option.map_some, Nat.div_add_mod']

/-- Digits in front of those that a value needs are zeros. -/
theorem fixed_add {width value : Nat} (small : value < 16 ^ width) (zeros : Nat) :
    fixed (zeros + width) value = List.replicate zeros '0' ++ fixed width value := by
  induction width generalizing value with
  | zero =>
      have zero : value = 0 := by
        rw [Nat.pow_zero] at small
        omega
      subst zero
      rw [Nat.add_zero, fixed, List.append_nil]
      induction zeros with
      | zero => rfl
      | succ zeros ih =>
          rw [fixed, Nat.zero_div, ih, List.replicate_succ']
          rfl
  | succ width ih =>
      have shorter : value / 16 < 16 ^ width := by
        rw [Nat.pow_succ] at small
        omega
      rw [← Nat.add_assoc, fixed, ih shorter, fixed, List.append_assoc]

/-! ### Denoted values -/

/-- A value fits a width exactly if its shortest spelling does. -/
theorem lt_pow_iff {width value : Nat} (positive : 0 < width) :
    value < 16 ^ width ↔ Nat.log2 value / 4 + 1 ≤ width := by
  have base : 16 ^ width = 2 ^ (4 * width) := by rw [Nat.pow_mul]
  rw [base]
  by_cases zero : value = 0
  · subst zero
    have pos := Nat.two_pow_pos (4 * width)
    simp only [Nat.log2_zero, pos, true_iff]
    omega
  · rw [← Nat.log2_lt zero]
    omega

/-- Digits denote a value exactly if there are some and they are read as that value. -/
theorem denotes_iff {digits : List Char} {value : Nat} :
    Denotes digits value ↔ digits ≠ [] ∧ read? digits = some value := by
  have bound : value < 16 ^ (Nat.log2 value / 4 + 1) :=
    (lt_pow_iff (Nat.succ_pos _)).mpr (Nat.le_refl _)
  rw [read?_eq_some_iff]
  constructor
  · rintro ⟨zeros, spelled⟩
    rw [shortest, ← fixed_add bound] at spelled
    have length := congrArg List.length spelled
    rw [List.length_map, fixed_length] at length
    refine ⟨?_, by rw [length, spelled], ?_⟩
    · intro none
      rw [none, List.length_nil] at length
      omega
    · rw [length]
      exact Nat.lt_of_lt_of_le bound (Nat.pow_le_pow_right (by decide) (Nat.le_add_left _ _))
  · rintro ⟨some, spelled, fits⟩
    have positive := List.length_pos_iff.mpr some
    have enough := (lt_pow_iff positive).mp fits
    refine ⟨digits.length - (Nat.log2 value / 4 + 1), ?_⟩
    rw [spelled, shortest, ← fixed_add bound, Nat.sub_add_cancel enough]

/-- Hexadecimal digits, if there are any, denote a value. -/
theorem exists_denotes {digits : List Char} (some : digits ≠ [])
    (inside : ∀ c ∈ digits, (digitValue? c).isSome = true) : ∃ value, Denotes digits value := by
  have reads : ∃ value, read? digits = .some value := by
    clear some
    induction digits using List.reverseRecOn with
    | nil => exact ⟨0, rfl⟩
    | append_singleton digits last ih =>
        obtain ⟨value, read⟩ := ih fun c member => inside c (List.mem_append_left _ member)
        obtain ⟨unit, digit⟩ := Option.isSome_iff_exists.mp (inside last (by simp))
        refine ⟨value * 16 + unit, ?_⟩
        rw [read?_append_singleton, read, Option.bind_some, digit, Option.map_some]
  obtain ⟨value, read⟩ := reads
  exact ⟨value, denotes_iff.mpr ⟨some, read⟩⟩

end ControlStore.Hex
