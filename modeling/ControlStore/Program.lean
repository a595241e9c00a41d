import ControlStore.Record

set_option autoImplicit false

/-!
Symbolic microprograms. A program is a list of states; the position of a state is its code. A
state gives control values by name and says which state comes next.
-/
namespace ControlStore

/-- A rule of a guarded transition. A restriction that is absent holds of everything. -/
structure Clause where
  opcodes : Option (List String)
  zero : Option Bool
  negative : Option Bool
  target : String
deriving DecidableEq, Repr

namespace Clause

def goto (target : String) : Clause := ⟨none, none, none, target⟩

/-- Restricts a clause to opcodes. -/
def forOpcodes (clause : Clause) (opcodes : List String) : Clause :=
  { clause with opcodes := opcodes }

def whenZero (clause : Clause) (value : Bool) : Clause := { clause with zero := value }

def whenNegative (clause : Clause) (value : Bool) : Clause := { clause with negative := value }

/-- Whether the flags meet the restrictions. -/
def acceptsFlags (clause : Clause) (zero negative : Bool) : Bool :=
  clause.zero.all (· == zero) && clause.negative.all (· == negative)

/-- Whether the opcode meets the restriction. -/
def acceptsSymbol (clause : Clause) (symbol : String) : Bool :=
  clause.opcodes.all (·.contains symbol)

/-- Whether all restrictions are met. -/
def accepts (clause : Clause) (symbol : String) (zero negative : Bool) : Bool :=
  clause.acceptsSymbol symbol && clause.acceptsFlags zero negative

end Clause

/-- How a state picks its successor. -/
inductive Transition where
  /-- The named state always follows. -/
  | always (target : String)
  /-- The first clause that accepts decides; if none does, the state stays. -/
  | guarded (clauses : List Clause)
deriving DecidableEq, Repr

/-- A state of a program; `next` is absent when the author gave no usable transition. -/
structure State where
  name : String
  control : Record
  next : Option Transition
deriving DecidableEq

namespace State

/-- The state that gives no control values and has no transition. -/
def named (name : String) : State := ⟨name, NameMap.empty, none⟩

/-- Gives a field a number. -/
def select (state : State) (field : String) (value : Nat) : State :=
  { state with control := state.control.insert field (.level value) }

/-- Turns a field on. -/
def strobe (state : State) (field : String) : State :=
  { state with control := state.control.insert field (.flag true) }

/-- Makes the named state the only successor. -/
def goto (state : State) (target : String) : State :=
  { state with next := some (.always target) }

/-- Makes clauses decide the successor. -/
def branch (state : State) (clauses : List Clause) : State :=
  { state with next := some (.guarded clauses) }

end State

/-- States in the order of their codes. -/
structure Program where
  states : List State
deriving DecidableEq

namespace Program

def names (program : Program) : List String := program.states.map (·.name)

def size (program : Program) : Nat := program.states.length

def isEmpty (program : Program) : Bool := program.states.isEmpty

def push (program : Program) (state : State) : Program := ⟨program.states ++ [state]⟩

def remove (program : Program) (position : Nat) : Program := ⟨program.states.eraseIdx position⟩

/-- Changes the state at a position. -/
def modify (program : Program) (position : Nat) (change : State → State) : Program :=
  ⟨program.states.modify position change⟩

/-- Exchanges the states at two positions. -/
def swap (program : Program) (first second : Nat) : Program :=
  match program.states[first]?, program.states[second]? with
  | some earlier, some later => ⟨(program.states.set first later).set second earlier⟩
  | _, _ => program

end Program

end ControlStore
