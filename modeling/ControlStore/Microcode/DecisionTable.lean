import ControlStore.Microcode.StateIndex
import ControlStore.Program
import ControlStore.Schema

set_option autoImplicit false

/-!
Decision tables. A state has one cell for every opcode and every pair of flags, and a cell holds
the code of the next state. Clauses claim cells in order; a claimed cell is not claimed again, and
the cells that no clause claims stay in the state.
-/
namespace ControlStore

/-- The next codes of one state, four to an opcode in the order of declaration. -/
structure DecisionTable where
  cells : Array UInt8
deriving DecidableEq, Repr

namespace DecisionTable

/-- The number of cells of an opcode: one for each pair of flags. -/
def flagPairs : Nat := 4

/-- The cell of an opcode's position and the flags. -/
def slot (opcode : Nat) (zero negative : Bool) : Nat :=
  opcode * flagPairs + 2 * zero.toNat + negative.toNat

theorem slot_div (opcode : Nat) (zero negative : Bool) :
    slot opcode zero negative / flagPairs = opcode := by
  have hz := zero.toNat_le
  have hn := negative.toNat_le
  simp only [slot, flagPairs]
  omega

theorem slot_testBit_zero (opcode : Nat) (zero negative : Bool) :
    (slot opcode zero negative).testBit 0 = negative := by
  have parity : slot opcode zero negative % 2 = negative.toNat := by
    have hn := negative.toNat_le
    simp only [slot, flagPairs]
    omega
  rw [Nat.testBit_zero, parity]
  cases negative <;> rfl

theorem slot_testBit_one (opcode : Nat) (zero negative : Bool) :
    (slot opcode zero negative).testBit 1 = zero := by
  have parity : slot opcode zero negative / 2 % 2 = zero.toNat := by
    have hz := zero.toNat_le
    have hn := negative.toNat_le
    simp only [slot, flagPairs]
    omega
  rw [Nat.testBit_succ, Nat.testBit_zero, parity]
  cases zero <;> rfl

theorem slot_lt_iff (opcode opcodes : Nat) (zero negative : Bool) :
    slot opcode zero negative < opcodes * flagPairs ↔ opcode < opcodes := by
  have hz := zero.toNat_le
  have hn := negative.toNat_le
  simp only [slot, flagPairs]
  omega

/-- The next code for an opcode's position and the flags. -/
def get? (table : DecisionTable) (opcode : Nat) (zero negative : Bool) : Option UInt8 :=
  table.cells[slot opcode zero negative]?

def size (table : DecisionTable) : Nat := table.cells.size

/-- The table with one code in all cells. -/
def constant (opcodes : Nat) (code : UInt8) : DecisionTable :=
  ⟨Array.replicate (opcodes * flagPairs) code⟩

end DecisionTable

/-- A clause whose names have become positions and codes. -/
structure Rule where
  opcodes : Option (List Nat)
  zero : Option Bool
  negative : Option Bool
  target : UInt8
deriving DecidableEq, Repr

namespace Rule

/-- Whether a rule accepts the opcode and the flags of a cell. -/
def acceptsCell (rule : Rule) (cell : Nat) : Bool :=
  rule.opcodes.all (·.contains (cell / DecisionTable.flagPairs)) &&
    rule.zero.all (· == cell.testBit 1) && rule.negative.all (· == cell.testBit 0)

/-- Gives the rule's target to the free cells that it accepts. -/
def claim (cells : Array (Option UInt8)) (rule : Rule) : Array (Option UInt8) :=
  cells.mapIdx fun cell held =>
    held.or (if rule.acceptsCell cell then some rule.target else none)

end Rule

/-- The table of rules in order; the cells they leave free hold the state's own code. -/
def DecisionTable.ofRules (opcodes : Nat) (own : UInt8) (rules : List Rule) : DecisionTable :=
  ⟨(rules.foldl Rule.claim (Array.replicate (opcodes * flagPairs) none)).map (·.getD own)⟩

namespace State

/-- The code of a state that a transition of this state leads to. -/
def targetCode (state : State) (index : StateIndex) (target : String) :
    Except CompileError UInt8 :=
  match index.code? target with
  | some code => .ok code
  | none => .error (.unknownState state.name target)

/-- The position of an opcode that a clause of this state lists. -/
def opcodeIndex (state : State) (schema : Schema) (symbol : String) : Except CompileError Nat :=
  match schema.indexOf? symbol with
  | some position => .ok position
  | none => .error (.unknownOpcode state.name symbol)

/-- The positions of the opcodes that a clause lists, if it lists any. -/
def opcodeFilter (state : State) (schema : Schema) :
    Option (List String) → Except CompileError (Option (List Nat))
  | none => .ok none
  | some symbols => some <$> symbols.mapM (state.opcodeIndex schema)

/-- The rule of a clause. The target is looked up before the opcodes. -/
def rule (state : State) (schema : Schema) (index : StateIndex) (clause : Clause) :
    Except CompileError Rule := do
  let target ← state.targetCode index clause.target
  let opcodes ← state.opcodeFilter schema clause.opcodes
  return ⟨opcodes, clause.zero, clause.negative, target⟩

/-- The decision table of a state. A guarded state's own code is looked up after its clauses. -/
def table (state : State) (schema : Schema) (index : StateIndex) :
    Except CompileError DecisionTable :=
  match state.next with
  | none => .error (.unresolvedTransition state.name)
  | some (.always target) => do
      let code ← state.targetCode index target
      return .constant schema.opcodes.length code
  | some (.guarded clauses) => do
      let rules ← clauses.mapM (state.rule schema index)
      let own ← state.targetCode index state.name
      return .ofRules schema.opcodes.length own rules

/-- The table of a state from its cells, all of which must be claimed. -/
def dense (state : State) (cells : Array (Option UInt8)) : Except CompileError DecisionTable :=
  match cells.toList.mapM id with
  | some codes => .ok ⟨codes.toArray⟩
  | none => .error (.unresolvedTransition state.name)

end State

/-- The tables of states, in order. -/
def resolve (schema : Schema) (index : StateIndex) (states : List State) :
    Except CompileError (List DecisionTable) :=
  states.mapM (·.table schema index)

end ControlStore
