set_option autoImplicit false

/-!
The signals of a control word. `layout` lists them from the most significant to the least; widths
and positions follow from it.
-/
namespace ControlStore

-- Powers and sums are those of the core library, whatever else is imported beside this module.
attribute [local instance (2000)] instPowNat Zero.ofOfNat0

/-- A field of the control word. -/
inductive Signal where
  | aluOp
  | aluOpSelect
  | aSelect
  | rdInputSelect
  | pcSelect
  | bSelect
  | addressSelect
  | flagsWrite
  | pcWrite
  | irWrite
  | immWrite
  | registerWrite
  | write
  | read
deriving DecidableEq, Repr

namespace Signal

/-- All signals, most significant first. -/
def layout : List Signal :=
  [aluOp, aluOpSelect, aSelect, rdInputSelect, pcSelect, bSelect, addressSelect,
    flagsWrite, pcWrite, irWrite, immWrite, registerWrite, write, read]

/-- The name of a signal in control records. -/
def name : Signal → String
  | aluOp => "alu_op"
  | aluOpSelect => "alu_op_select"
  | aSelect => "a_select"
  | rdInputSelect => "rd_input_select"
  | pcSelect => "pc_select"
  | bSelect => "b_select"
  | addressSelect => "address_select"
  | flagsWrite => "flags_write"
  | pcWrite => "pc_write"
  | irWrite => "ir_write"
  | immWrite => "imm_write"
  | registerWrite => "register_write"
  | write => "write"
  | read => "read"

/-- The number of bits a signal has in the control word. -/
def width : Signal → Nat
  | aluOp => 4
  | rdInputSelect | pcSelect | bSelect | addressSelect => 2
  | _ => 1

/-- The largest value that fits a signal: ones in all its bits. -/
def mask (s : Signal) : Nat := 2 ^ s.width - 1

/-- The signals after this one in the layout. -/
def below (s : Signal) : List Signal := (layout.dropWhile (· != s)).drop 1

/-- The position of a signal's lowest bit: the width of all signals after it. -/
def shift (s : Signal) : Nat := (s.below.map width).sum

def index (s : Signal) : Nat := layout.idxOf s

def count : Nat := layout.length

def wordBits : Nat := (layout.map width).sum

def ofName? (name : String) : Option Signal := layout.find? (·.name == name)

theorem mem_layout (s : Signal) : s ∈ layout := by cases s <;> decide

theorem index_lt (s : Signal) : s.index < count := by cases s <;> decide

theorem index_injective {s t : Signal} (same : s.index = t.index) : s = t := by
  revert same
  cases s <;> cases t <;> decide

theorem layout_index (s : Signal) : layout[s.index]? = some s := by cases s <;> rfl

theorem index_layout : ∀ i : Fin count, (layout.get i).index = i.val := by decide

theorem name_injective {s t : Signal} (same : s.name = t.name) : s = t := by
  revert same
  cases s <;> cases t <;> decide

theorem ofName?_name (s : Signal) : ofName? s.name = some s := by cases s <;> decide

/-- A name belongs to at most the one signal that carries it. -/
theorem ofName?_eq_some_iff {text : String} {s : Signal} :
    ofName? text = some s ↔ s.name = text := by
  constructor
  · intro found
    have carried := List.find?_some found
    exact eq_of_beq carried
  · rintro rfl
    exact ofName?_name s

end Signal

end ControlStore
