import ControlStore.Assignment

set_option autoImplicit false

/-!
Control words. `pack` writes the signals side by side, most significant first, each cut to its
width; `extract` reads one signal and `unpack` all of them.
-/
namespace ControlStore.ControlWord

-- Powers are those of the core library, whatever else is imported beside this module.
attribute [local instance (2000)] instPowNat

/-- Appends the bits of one signal to a word. -/
def append (word : Nat) (s : Signal) (value : Nat) : Nat :=
  word * 2 ^ s.width + value % 2 ^ s.width

/-- The word of an assignment. -/
def pack (a : Assignment) : Nat :=
  a.toList.foldl (fun word entry => append word entry.1 entry.2) 0

def extract (word : Nat) (s : Signal) : Nat := word / 2 ^ s.shift % 2 ^ s.width

def unpack (word : Nat) : Assignment := Assignment.ofFn (extract word)

end ControlStore.ControlWord
