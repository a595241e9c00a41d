import ControlStore.Microcode.Image
import Mathlib.Data.List.Basic

set_option autoImplicit false

/-!
Dumps of ROM images. A dump shows every entry in a column of the same width: as many uppercase
digits as any entry takes, and a blank. So the place of an entry is known before its value is, and
reading the digits between the blanks gives the image back.
-/
namespace ControlStore

-- Powers are those of the core library, whatever else is imported beside this module.
attribute [local instance (2000)] instPowNat

namespace Hex

/-- A digit that is no lowercase letter. -/
def IsUppercase (c : Char) : Prop := c ∈ "0123456789ABCDEF".toList

instance (c : Char) : Decidable (IsUppercase c) := inferInstanceAs (Decidable (_ ∈ _))

theorem isUppercase_digit {value : Nat} (small : value < 16) : IsUppercase (digit value) := by
  revert value
  decide

theorem isUppercase_fixed (width value : Nat) : ∀ c ∈ fixed width value, IsUppercase c := by
  induction width generalizing value with
  | zero => simp [fixed]
  | succ width ih =>
      intro c member
      rw [fixed, List.mem_append, List.mem_singleton] at member
      rcases member with front | rfl
      · exact ih (value / 16) c front
      · exact isUppercase_digit (Nat.mod_lt value (by omega))

theorem IsUppercase.ne_blank {c : Char} (upper : IsUppercase c) : c ≠ ' ' := by
  rintro rfl
  revert upper
  decide

end Hex

namespace Dump

/-- A text shows values in columns: for each of them its digits, and a blank behind them. -/
structure Columns (width : Nat) (values : List Nat) (text : List Char) : Prop where
  length : text.length = (width + 1) * values.length
  column : ∀ (i value : Nat), values[i]? = some value → ∃ digits : List Char,
    (text.drop ((width + 1) * i)).take (width + 1) = digits ++ [' '] ∧ digits.length = width ∧
      (∀ c ∈ digits, Hex.IsUppercase c) ∧ Hex.read? digits = some value

/-- The pieces of a text between its blanks. -/
def tokens (text : List Char) : List (List Char) := (text.splitOn ' ').filter (· ≠ [])

/-- The values whose digits stand between the blanks of a text. -/
def read? (text : String) : Option (List Nat) := (tokens text.toList).mapM Hex.read?

/-! ### Columns -/

section Columns

variable {width value : Nat} {values : List Nat} {text : List Char}

theorem columns_nil : Columns width [] [] := by
  apply Columns.mk
  · simp
  · simp

theorem Columns.eq_nil (columns : Columns width [] text) : text = [] := by
  apply List.eq_nil_of_length_eq_zero
  simpa using columns.length

/-- One more column in front moves all others by its width. -/
theorem Columns.cons {digits : List Char} (length : digits.length = width)
    (upper : ∀ c ∈ digits, Hex.IsUppercase c) (read : Hex.read? digits = some value)
    (columns : Columns width values text) :
    Columns width (value :: values) (digits ++ ' ' :: text) := by
  have front : (digits ++ [' ']).length = width + 1 := by simp [length]
  have split : digits ++ ' ' :: text = (digits ++ [' ']) ++ text := by simp
  rw [split]
  apply Columns.mk
  · rw [List.length_append, front, columns.length, List.length_cons, Nat.mul_succ, Nat.add_comm]
  · intro i other located
    cases i with
    | zero =>
        obtain rfl : value = other := by simpa using located
        refine ⟨digits, ?_, length, upper, read⟩
        rw [Nat.mul_zero, List.drop_zero, List.take_left' front]
    | succ i =>
        obtain ⟨held, here, rest⟩ := columns.column i other (by simpa using located)
        refine ⟨held, ?_, rest⟩
        rw [Nat.mul_succ, Nat.add_comm (_ * i), ← List.drop_drop, List.drop_left' front, here]

/-- The first column and those behind it. -/
theorem Columns.exists_cons (columns : Columns width (value :: values) text) :
    ∃ digits rest, text = digits ++ ' ' :: rest ∧ digits.length = width ∧
      (∀ c ∈ digits, Hex.IsUppercase c) ∧ Hex.read? digits = some value ∧
      Columns width values rest := by
  obtain ⟨digits, here, length, upper, read⟩ := columns.column 0 value (by simp)
  rw [Nat.mul_zero, List.drop_zero] at here
  refine ⟨digits, text.drop (width + 1), ?_, length, upper, read, ?_, ?_⟩
  · have whole := List.take_append_drop (width + 1) text
    rw [here] at whole
    simpa using whole.symm
  · have total := columns.length
    rw [List.length_cons, Nat.mul_succ] at total
    rw [List.length_drop]
    omega
  · intro i other located
    have later := columns.column (i + 1) other (by simpa using located)
    rwa [Nat.mul_succ, Nat.add_comm (_ * i), ← List.drop_drop] at later

/-- Digits of a fixed width and blanks show all values that have no more digits. -/
theorem columns_fixed (fit : ∀ value ∈ values, value < 16 ^ width) :
    Columns width values (values.flatMap fun value => Hex.fixed width value ++ [' ']) := by
  induction values with
  | nil => exact columns_nil
  | cons value rest ih =>
      have small : value < 16 ^ width := fit value (by simp)
      have read : Hex.read? (Hex.fixed width value) = some value := by
        rw [Hex.read?_fixed, Nat.mod_eq_of_lt small]
      have behind := ih fun other member => fit other (by simp [member])
      rw [List.flatMap_cons, List.append_assoc]
      exact behind.cons (Hex.fixed_length width value) (Hex.isUppercase_fixed width value) read

/-! ### Reading -/

theorem tokens_nil : tokens [] = [] := by simp [tokens, List.splitOn]

/-- What stands before a blank is a piece of its own. -/
theorem tokens_append {piece : List Char} (some : piece ≠ []) (whole : ∀ c ∈ piece, c ≠ ' ')
    (rest : List Char) : tokens (piece ++ ' ' :: rest) = piece :: tokens rest := by
  have inside : ∀ c ∈ piece, (c == ' ') = false := by simpa using whole
  rw [tokens, List.splitOn, List.splitOnP_append_cons_of_forall_mem inside ' ' (by simp) rest]
  simp [some, tokens, List.splitOn]

/-- Columns that are not empty are read as the values that they show. -/
theorem Columns.mapM_tokens (positive : 0 < width) (columns : Columns width values text) :
    (tokens text).mapM Hex.read? = some values := by
  induction values generalizing text with
  | nil => simp [columns.eq_nil, tokens_nil]
  | cons value rest ih =>
      obtain ⟨digits, behind, rfl, length, upper, read, columns⟩ := columns.exists_cons
      have some : digits ≠ [] := by
        rintro rfl
        simp at length
        omega
      rw [tokens_append some (fun c member => (upper c member).ne_blank) behind, List.mapM_cons,
        read, ih columns]
      rfl

end Columns

/-! ### Images -/

theorem toList_decision (rom : Array UInt8) : (decision rom).toList =
    (rom.toList.map UInt8.toNat).flatMap fun value => Hex.fixed 2 value ++ [' '] := by
  rw [decision, String.toList_ofList, List.flatMap_map]
  rfl

theorem toList_control (rom : Array UInt32) : (control (rom.map UInt32.toNat)).toList =
    (rom.toList.map UInt32.toNat).flatMap fun value => Hex.fixed 8 value ++ [' '] := by
  rw [control, String.toList_ofList, Array.toList_map]
  rfl

theorem columns_decision (rom : Array UInt8) :
    Columns 2 (rom.toList.map UInt8.toNat) (decision rom).toList := by
  rw [toList_decision]
  apply columns_fixed
  intro value member
  obtain ⟨byte, -, rfl⟩ := List.mem_map.mp member
  exact byte.toNat_lt

theorem columns_control (rom : Array UInt32) :
    Columns 8 (rom.toList.map UInt32.toNat) (control (rom.map UInt32.toNat)).toList := by
  rw [toList_control]
  apply columns_fixed
  intro value member
  obtain ⟨word, -, rfl⟩ := List.mem_map.mp member
  exact word.toNat_lt

theorem read?_decision (rom : Array UInt8) :
    read? (decision rom) = some (rom.toList.map UInt8.toNat) :=
  (columns_decision rom).mapM_tokens (by omega)

theorem read?_control (rom : Array UInt32) :
    read? (control (rom.map UInt32.toNat)) = some (rom.toList.map UInt32.toNat) :=
  (columns_control rom).mapM_tokens (by omega)

/-- Images whose values can be read from their dumps are told apart by them. -/
theorem eq_of_read? {α : Type} {toNat : α → Nat} (injective : Function.Injective toNat)
    {dump : Array α → String} (read : ∀ rom, read? (dump rom) = some (rom.toList.map toNat))
    {first second : Array α} (same : dump first = dump second) : first = second := by
  have values := (read first).symm.trans ((congrArg read? same).trans (read second))
  apply Array.toList_inj.mp
  exact List.map_injective_iff.mpr injective (Option.some.inj values)

end Dump

/-- A dump of bytes has three characters for each of them, a dump of 32-bit words has nine: the
uppercase digits of the value, two or eight, and a blank. Read as hexadecimal numbers between blanks
a dump gives its image back, so images with the same dump are the same. -/
theorem dumps_show_images :
    (∀ rom : Array UInt8, (Dump.decision rom).length = 3 * rom.size ∧
      Dump.Columns 2 (rom.toList.map UInt8.toNat) (Dump.decision rom).toList ∧
      Dump.read? (Dump.decision rom) = some (rom.toList.map UInt8.toNat) ∧
      ∀ other : Array UInt8, Dump.decision other = Dump.decision rom → other = rom) ∧
    ∀ rom : Array UInt32, (Dump.control (rom.map UInt32.toNat)).length = 9 * rom.size ∧
      Dump.Columns 8 (rom.toList.map UInt32.toNat) (Dump.control (rom.map UInt32.toNat)).toList ∧
      Dump.read? (Dump.control (rom.map UInt32.toNat)) = some (rom.toList.map UInt32.toNat) ∧
      ∀ other : Array UInt32, Dump.control (other.map UInt32.toNat) =
        Dump.control (rom.map UInt32.toNat) → other = rom := by
  constructor
  · intro rom
    have columns := Dump.columns_decision rom
    refine ⟨?_, columns, Dump.read?_decision rom, ?_⟩
    · rw [← String.length_toList, columns.length]
      simp
    · intro other same
      exact Dump.eq_of_read? (fun _ _ => UInt8.toNat_inj.mp) Dump.read?_decision same
  · intro rom
    have columns := Dump.columns_control rom
    refine ⟨?_, columns, Dump.read?_control rom, ?_⟩
    · rw [← String.length_toList, columns.length]
      simp
    · intro other same
      exact Dump.eq_of_read? (fun _ _ => UInt32.toNat_inj.mp) Dump.read?_control same

example : Dump.decision #[0x02, 0x1F, 0x00] = "02 1F 00 " := by decide

end ControlStore
