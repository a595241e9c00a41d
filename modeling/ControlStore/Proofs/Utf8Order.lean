import Mathlib.Data.List.Lex
import Mathlib.Tactic.SplitIfs

set_option autoImplicit false

/-!
The order of names. Names are compared character by character; comparing the bytes of their UTF-8
encodings gives the same order, because the encodings of two characters differ first where the
digits of their code points do. So the first of some names is the same in either order.
-/
namespace ControlStore

theorem ofNat_cons_lt_iff {first second : Nat} {rest behind : List UInt8} (small : first < 256)
    (small' : second < 256) :
    UInt8.ofNat first :: rest < UInt8.ofNat second :: behind ↔
      first < second ∨ first = second ∧ rest < behind := by
  rw [List.cons_lt_cons_iff, UInt8.lt_iff_toNat_lt, ← UInt8.toNat_inj,
    UInt8.toNat_ofNat_of_lt' small, UInt8.toNat_ofNat_of_lt' small']

/-- A smaller number has smaller digits in front of the last, or the same and a smaller last one. -/
theorem digits_lt {x y : Nat} (smaller : x < y) :
    x / 64 < y / 64 ∨ x / 64 = y / 64 ∧ x % 64 < y % 64 := by omega

theorem utf8EncodeChar_lt {c d : Char} (before : c < d) (rest behind : List UInt8) :
    String.utf8EncodeChar c ++ rest < String.utf8EncodeChar d ++ behind := by
  have smaller : c.val.toNat < d.val.toNat := before
  have last : d.val.toNat < 0x110000 := by
    have valid := d.valid
    unfold UInt32.isValidChar Nat.isValidChar at valid
    omega
  unfold String.utf8EncodeChar
  generalize c.val.toNat = x at smaller
  generalize d.val.toNat = y at smaller last
  -- Which digits of two code points differ first; two or more bytes hold six bits each.
  have front (n : Nat) : n / 64 / 64 = n / 4096 := Nat.div_div_eq_div_mul n 64 64
  have front' (n : Nat) : n / 4096 / 64 = n / 262144 := Nat.div_div_eq_div_mul n 4096 64
  have low := digits_lt smaller
  have middle (here : x / 64 < y / 64) := digits_lt here
  have high (here : x / 4096 < y / 4096) := digits_lt here
  have leading : x / 262144 % 8 = x / 262144 := Nat.mod_eq_of_lt (by omega)
  have leading' : y / 262144 % 8 = y / 262144 := Nat.mod_eq_of_lt (by omega)
  simp only [front, front'] at middle high
  dsimp only
  split_ifs <;>
    simp (disch := omega) only [List.cons_append, List.nil_append, ofNat_cons_lt_iff] <;> omega

theorem flatMap_utf8EncodeChar_lt {first second : List Char} (before : first < second) :
    first.flatMap String.utf8EncodeChar < second.flatMap String.utf8EncodeChar := by
  induction second generalizing first with
  | nil => exact absurd before (List.not_lt_nil first)
  | cons d rest ih =>
      rw [List.flatMap_cons]
      cases first with
      | nil =>
          cases encoded : String.utf8EncodeChar d with
          | nil => exact absurd encoded String.utf8EncodeChar_ne_nil
          | cons byte bytes => exact List.nil_lt_cons _ _
      | cons c behind =>
          rw [List.flatMap_cons]
          rcases List.cons_lt_cons_iff.mp before with smaller | ⟨rfl, later⟩
          · exact utf8EncodeChar_lt smaller _ _
          · exact List.append_left_lt (ih later)

theorem toUTF8_toList (name : String) :
    name.toUTF8.data.toList = name.toList.flatMap String.utf8EncodeChar := by
  rw [String.toUTF8_eq_toByteArray, ← String.utf8Encode_toList, List.utf8Encode,
    List.data_toByteArray, List.toList_toArray]

/-- Names stand in the order of the bytes of their UTF-8 encodings. -/
theorem toUTF8_lt {first second : String} (before : first < second) :
    first.toUTF8.data.toList < second.toUTF8.data.toList := by
  rw [toUTF8_toList, toUTF8_toList]
  exact flatMap_utf8EncodeChar_lt (String.lt_iff.mp before)

/-- The bytes of a name come before those of another. -/
def Utf8Before (first second : String) : Prop :=
  first.toUTF8.data.toList < second.toUTF8.data.toList

/-- The smallest name that has a property. -/
structure Utf8First (Has : String → Prop) (name : String) : Prop where
  has : Has name
  none_before : ∀ smaller, Utf8Before smaller name → ¬ Has smaller

theorem utf8Before_iff {first second : String} : Utf8Before first second ↔ first < second := by
  constructor
  · intro before
    by_cases above : second < first
    · exact absurd before (List.lt_asymm (toUTF8_lt above))
    · by_contra notBelow
      have same : first = second :=
        String.le_antisymm (String.not_lt.mp above) (String.not_lt.mp notBelow)
      rw [same] at before
      exact List.lt_irrefl _ before
  · exact toUTF8_lt

end ControlStore
