import ControlStore.ControlWord
import Mathlib.Tactic.Ring

set_option autoImplicit false

/-!
Signals inside a control word. Packing shifts what came before up by the width of each signal, so a
signal ends up above the width of all signals after it: where extraction looks for it. What is too
wide for its signal is cut before it can reach a neighbour.
-/
namespace ControlStore

open ControlWord

/-- The word of some signals, packed in order after what is there. -/
def packAfter (word : Nat) (a : Assignment) (signals : List Signal) : Nat :=
  signals.foldl (fun held s => append held s (a.get s)) word

/-- The number of bits that signals take together. -/
def widths (signals : List Signal) : Nat := (signals.map Signal.width).sum

theorem pack_eq_packAfter (a : Assignment) : pack a = packAfter 0 a Signal.layout := by
  rw [pack, Assignment.toList, List.foldl_map, packAfter]

theorem packAfter_append (word : Nat) (a : Assignment) (first second : List Signal) :
    packAfter word a (first ++ second) = packAfter (packAfter word a first) a second :=
  List.foldl_append

theorem widths_cons (s : Signal) (signals : List Signal) :
    widths (s :: signals) = s.width + widths signals := by
  rw [widths, List.map_cons, List.sum_cons, widths]

/-- What is packed after a word stands below it and leaves it whole. -/
theorem packAfter_eq (word : Nat) (a : Assignment) (signals : List Signal) :
    packAfter word a signals = 2 ^ widths signals * word + packAfter 0 a signals := by
  induction signals generalizing word with
  | nil => simp [packAfter, widths]
  | cons s rest ih =>
      have step (held : Nat) : packAfter held a (s :: rest) =
          packAfter (append held s (a.get s)) a rest := rfl
      rw [step, step, ih (append word s (a.get s)), ih (append 0 s (a.get s)), widths_cons,
        Nat.pow_add, append, append]
      ring

/-- Signals fit the bits that they take together. -/
theorem packAfter_lt (a : Assignment) (signals : List Signal) :
    packAfter 0 a signals < 2 ^ widths signals := by
  induction signals with
  | nil => exact Nat.one_pos
  | cons s rest ih =>
      have fits : a.get s % 2 ^ s.width < 2 ^ s.width := Nat.mod_lt _ (Nat.two_pow_pos _)
      have scaled := Nat.mul_le_mul_left (2 ^ widths rest) fits
      have step : packAfter 0 a (s :: rest) = packAfter (a.get s % 2 ^ s.width) a rest := by
        simp [packAfter, append]
      rw [step, packAfter_eq, widths_cons, Nat.pow_add, Nat.mul_comm (2 ^ s.width)]
      rw [Nat.mul_succ] at scaled
      omega

/-- The signals before a signal in the layout. -/
def Signal.above (s : Signal) : List Signal := Signal.layout.takeWhile (· != s)

theorem Signal.layout_eq (s : Signal) : Signal.layout = s.above ++ s :: s.below := by
  cases s <;> rfl

/-- A packed word has the bits of the signals and no more. -/
theorem pack_lt (a : Assignment) : pack a < 2 ^ Signal.wordBits := by
  rw [pack_eq_packAfter]
  exact packAfter_lt a Signal.layout

/-- A signal is read back from a packed word as far as it fits its width. -/
theorem extract_pack (a : Assignment) (s : Signal) :
    extract (pack a) s = a.get s % 2 ^ s.width := by
  have place : packAfter 0 a (s.above ++ s :: s.below) =
      2 ^ widths s.below * (2 ^ s.width * packAfter 0 a s.above + a.get s % 2 ^ s.width) +
        packAfter 0 a s.below := by
    rw [packAfter_append, Nat.mul_comm (2 ^ s.width)]
    exact packAfter_eq _ a s.below
  rw [pack_eq_packAfter, s.layout_eq, place, extract]
  change (2 ^ widths s.below * _ + _) / 2 ^ widths s.below % _ = _
  rw [Nat.mul_add_div (Nat.two_pow_pos _), Nat.div_eq_of_lt (packAfter_lt a s.below),
    Nat.add_zero, Nat.mul_add_mod, Nat.mod_mod]

end ControlStore
