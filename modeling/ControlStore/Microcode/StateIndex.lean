import ControlStore.Microcode.Error

set_option autoImplicit false

/-!
State codes. Names are numbered in order; there is at least one, there are at most 256, and no two
are alike, so a code has one name and a name one code.
-/
namespace ControlStore

/-- The names of a program's states; the position of a name is the code of its state. -/
structure StateIndex where
  names : List String
  nonempty : names ≠ []
  bounded : names.length ≤ 256
  distinct : names.Nodup

namespace StateIndex

/-- The largest number of states: codes are bytes. -/
def limit : Nat := 256

/-- The first name that occurred earlier, in a list or among names seen before it. -/
def firstRepeat? (seen : List String) : List String → Option String
  | [] => none
  | name :: rest => if name ∈ seen then some name else firstRepeat? (name :: seen) rest

theorem firstRepeat?_eq_none {seen names : List String} (fresh : firstRepeat? seen names = none) :
    names.Nodup ∧ ∀ name ∈ names, name ∉ seen := by
  induction names generalizing seen with
  | nil => exact ⟨List.nodup_nil, fun _ member => absurd member List.not_mem_nil⟩
  | cons name rest ih =>
      simp only [firstRepeat?] at fresh
      split at fresh
      · cases fresh
      · rename_i absent
        obtain ⟨distinct, apart⟩ := ih fresh
        refine ⟨List.nodup_cons.mpr ⟨?_, distinct⟩, ?_⟩
        · intro again
          exact apart name again List.mem_cons_self
        · intro other member
          rcases List.mem_cons.mp member with here | later
          · exact here ▸ absent
          · exact fun inSeen => apart other later (List.mem_cons_of_mem _ inSeen)

/-- Numbers the names in order. There must be some, not too many, and no two alike. -/
def build (names : List String) : Except CompileError StateIndex :=
  if nonempty : names = [] then .error .emptyProgram
  else if bounded : names.length ≤ limit then
    match fresh : firstRepeat? [] names with
    | some name => .error (.duplicateState name)
    | none => .ok ⟨names, nonempty, bounded, (firstRepeat?_eq_none fresh).1⟩
  else .error (.tooManyStates names.length limit)

def size (index : StateIndex) : Nat := index.names.length

/-- The code of a name. -/
def code? (index : StateIndex) (name : String) : Option UInt8 :=
  (index.names.idxOf? name).map UInt8.ofNat

def name? (index : StateIndex) (code : UInt8) : Option String := index.names[code.toNat]?

end StateIndex

end ControlStore
