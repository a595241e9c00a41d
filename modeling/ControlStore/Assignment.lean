import ControlStore.Signal

set_option autoImplicit false

/-!
Total assignments of values to signals, with one law for each operation through `get`.
-/
namespace ControlStore

/-- A value for every signal, not cut to the signal's width. -/
structure Assignment where
  values : Vector Nat Signal.count
deriving DecidableEq, Repr

namespace Assignment

/-- The value of a signal. -/
def get (a : Assignment) (s : Signal) : Nat :=
  have := s.index_lt
  a.values[s.index]

/-- Gives one signal a new value. -/
def set (a : Assignment) (s : Signal) (value : Nat) : Assignment :=
  ⟨a.values.set s.index value s.index_lt⟩

/-- The assignment with the given values. -/
def ofFn (f : Signal → Nat) : Assignment :=
  ⟨Vector.ofFn fun i => f (Signal.layout.get i)⟩

def zero : Assignment := ofFn fun _ => 0

/-- The signals with their values, most significant first. -/
def toList (a : Assignment) : List (Signal × Nat) := Signal.layout.map fun s => (s, a.get s)

@[simp] theorem get_ofFn (f : Signal → Nat) (s : Signal) : (ofFn f).get s = f s := by
  simp only [get, ofFn, Vector.getElem_ofFn]
  congr 1
  exact (List.getElem?_eq_some_iff.mp s.layout_index).2

@[simp] theorem get_zero (s : Signal) : zero.get s = 0 := get_ofFn _ s

theorem get_set (a : Assignment) (s t : Signal) (value : Nat) :
    (a.set s value).get t = if s = t then value else a.get t := by
  simp only [get, set, Vector.getElem_set]
  by_cases same : s = t
  · simp only [same, ↓reduceIte]
  · have apart : s.index ≠ t.index := fun equal => same (Signal.index_injective equal)
    simp only [apart, same, ↓reduceIte]

@[ext] theorem ext {a b : Assignment} (same : ∀ s, a.get s = b.get s) : a = b := by
  obtain ⟨first⟩ := a
  obtain ⟨second⟩ := b
  congr 1
  apply Vector.ext
  intro i inside
  have pointwise := same (Signal.layout.get ⟨i, inside⟩)
  have place : (Signal.layout.get ⟨i, inside⟩).index = i := Signal.index_layout ⟨i, inside⟩
  simpa only [get, place] using pointwise

end Assignment

end ControlStore
