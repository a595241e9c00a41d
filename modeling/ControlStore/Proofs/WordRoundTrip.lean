import ControlStore.Proofs.Registers
import Mathlib.Data.List.Nodup

set_option autoImplicit false

/-!
Packing and unpacking. A word is read signal by signal and packed again from the low end up: what
has been packed of the last signals is the low part of the word. Packing therefore loses the bits
above the signals and nothing else, and a word stands for one value of each signal.
-/
namespace ControlStore

-- Powers are those of the core library, whatever else is imported beside this module.
attribute [local instance (2000)] instPowNat

open ControlWord

theorem Signal.layout_nodup : Signal.layout.Nodup := by decide

/-- The signals behind a signal are what follows it in the layout. -/
theorem Signal.below_of_suffix {s : Signal} {rest : List Signal}
    (ending : s :: rest <:+ Signal.layout) : s.below = rest := by
  obtain ⟨front, whole⟩ := ending
  have distinct := Signal.layout_nodup
  rw [← whole, List.nodup_append] at distinct
  have before : ∀ t ∈ front, (t != s) = true := by
    intro t member
    exact bne_iff_ne.mpr (distinct.2.2 t member s List.mem_cons_self)
  rw [Signal.below, ← whole, List.dropWhile_append_of_pos before]
  simp

theorem get_unpack (word : Nat) (s : Signal) : (unpack word).get s = extract word s :=
  Assignment.get_ofFn (extract word) s

/-- The last signals of a word, packed again, are the low part of the word. -/
theorem packAfter_unpack (word : Nat) {signals : List Signal} (ending : signals <:+ Signal.layout) :
    packAfter 0 (unpack word) signals = word % 2 ^ widths signals := by
  induction signals with
  | nil => simp [packAfter, widths, Nat.mod_one]
  | cons s rest ih =>
      have behind := ih ((List.suffix_cons s rest).trans ending)
      have shift : s.shift = widths rest := by
        rw [Signal.shift, Signal.below_of_suffix ending, widths]
      have step : packAfter 0 (unpack word) (s :: rest) =
          packAfter (append 0 s ((unpack word).get s)) (unpack word) rest := rfl
      rw [step, packAfter_eq, behind, widths_cons, append, get_unpack, extract, shift, Nat.mod_mod,
        Nat.zero_mul, Nat.zero_add, Nat.add_comm s.width, Nat.pow_add, Nat.mod_mul, Nat.add_comm]

/-- Packing what was unpacked loses the bits above the signals. -/
theorem pack_unpack (word : Nat) : pack (unpack word) = word % 2 ^ Signal.wordBits := by
  rw [pack_eq_packAfter]
  exact packAfter_unpack word List.suffix_rfl

/-- Unpacking what was packed leaves of each value what fits. -/
theorem get_unpack_pack (a : Assignment) (s : Signal) :
    (unpack (pack a)).get s = a.get s % 2 ^ s.width := by
  rw [get_unpack, extract_pack]

/-- A word stands for the values of the signals as far as they fit. -/
theorem pack_eq_iff (a b : Assignment) :
    pack a = pack b ↔ ∀ s, a.get s % 2 ^ s.width = b.get s % 2 ^ s.width := by
  constructor
  · intro same s
    rw [← extract_pack a s, same, extract_pack b s]
  · intro alike
    have unpacked : unpack (pack a) = unpack (pack b) := by
      ext s
      rw [get_unpack_pack, get_unpack_pack, alike s]
    calc
      pack a = pack (unpack (pack a)) := by rw [pack_unpack, Nat.mod_eq_of_lt (pack_lt a)]
      _ = pack (unpack (pack b)) := by rw [unpacked]
      _ = pack b := by rw [pack_unpack, Nat.mod_eq_of_lt (pack_lt b)]

/-- A new value of one signal is seen in that signal alone. -/
theorem extract_pack_set (a : Assignment) (s t : Signal) (value : Nat) :
    extract (pack (a.set s value)) t =
      if s = t then value % 2 ^ s.width else extract (pack a) t := by
  rw [extract_pack, Assignment.get_set]
  by_cases same : s = t
  · rw [if_pos same, if_pos same, same]
  · rw [if_neg same, if_neg same, extract_pack]

/-- Packing and unpacking are inverse as far as values fit. A packed word has 21 bits, and unpacking
it gives every value cut to its signal's width; unpacking a word gives the values that are extracted
from it, and packing those gives its low 21 bits. So words are equal exactly if the values are, as
far as they fit, and a new value of one signal changes what is extracted of that signal alone. In
registers of 32 bits, by shifts and masks, the same words are packed and the same values
extracted. -/
theorem pack_inverts_unpack :
    (∀ a : Assignment, pack a < 2 ^ 21 ∧
      ∀ s, (unpack (pack a)).get s = a.get s % 2 ^ s.width) ∧
    (∀ word, (∀ s, (unpack word).get s = extract word s) ∧
      pack (unpack word) = word % 2 ^ 21) ∧
    (∀ a b : Assignment, pack a = pack b ↔
      ∀ s, a.get s % 2 ^ s.width = b.get s % 2 ^ s.width) ∧
    (∀ (a : Assignment) (s t : Signal) (value : Nat), extract (pack (a.set s value)) t =
      if s = t then value % 2 ^ s.width else extract (pack a) t) ∧
    (∀ a : Assignment, (packRegister a).toNat = pack a) ∧
    ∀ (word : BitVec 32) (s : Signal),
      (extractRegister word s).toNat = extract word.toNat s :=
  ⟨fun a => ⟨pack_lt a, get_unpack_pack a⟩, fun word => ⟨get_unpack word, pack_unpack word⟩,
    pack_eq_iff, extract_pack_set, toNat_packRegister, toNat_extractRegister⟩

end ControlStore
