set_option autoImplicit false

/-!
Hexadecimal text. `fixed` writes a number with a given count of uppercase digits, `shortest`
with as few as it takes, and `read?` reads digits of either case.
-/
namespace ControlStore.Hex

-- Powers are those of the core library, whatever else is imported beside this module.
attribute [local instance (2000)] instPowNat

/-- The uppercase digit of a value below sixteen. -/
def digit (value : Nat) : Char :=
  if value < 10 then Char.ofNat (48 + value) else Char.ofNat (55 + value)

/-- The value of a digit in either case. -/
def digitValue? (c : Char) : Option Nat :=
  if 48 ≤ c.toNat ∧ c.toNat ≤ 57 then some (c.toNat - 48)
  else if 65 ≤ c.toNat ∧ c.toNat ≤ 70 then some (c.toNat - 55)
  else if 97 ≤ c.toNat ∧ c.toNat ≤ 102 then some (c.toNat - 87)
  else none

/-- The last `width` digits of a value, most significant first. -/
def fixed : Nat → Nat → List Char
  | 0, _ => []
  | width + 1, value => fixed width (value / 16) ++ [digit (value % 16)]

/-- All digits of a value, without leading zeros; zero has one digit. -/
def shortest (value : Nat) : List Char :=
  fixed (Nat.log2 value / 4 + 1) value

/-- The number that digits denote, or `none` if one of them is no digit. -/
def read? (digits : List Char) : Option Nat :=
  digits.foldlM (fun value c => (digitValue? c).map (value * 16 + ·)) 0

theorem digitValue?_digit (value : Nat) (small : value < 16) :
    digitValue? (digit value) = some value := by
  revert value
  decide

theorem fixed_length (width value : Nat) : (fixed width value).length = width := by
  induction width generalizing value with
  | zero => rfl
  | succ width ih => simp only [fixed, List.length_append, ih, List.length_singleton]

/-- Reading a fixed-width text returns the part of the value that fits it. -/
theorem read?_fixed (width value : Nat) : read? (fixed width value) = some (value % 16 ^ width) := by
  induction width generalizing value with
  | zero => simp [fixed, read?, Nat.mod_one]
  | succ width ih =>
      have last := digitValue?_digit (value % 16) (Nat.mod_lt _ (by decide))
      have front : List.foldlM (fun held c => (digitValue? c).map (held * 16 + ·)) 0
          (fixed width (value / 16)) = some (value / 16 % 16 ^ width) := ih (value / 16)
      simp only [read?, fixed, List.foldlM_append, front, Option.bind_eq_bind, Option.bind_some,
        List.foldlM_cons, List.foldlM_nil, last, Option.map_some, Option.pure_def]
      rw [Nat.pow_succ, Nat.mul_comm (16 ^ width) 16, Nat.mod_mul]
      congr 1
      omega

end ControlStore.Hex
