import ControlStore.Proofs.FirstMatch
import ControlStore.Proofs.Matched
import ControlStore.Proofs.ProgramFaults

set_option autoImplicit false

/-!
Tables for any index. The states that are resolved need not be those that the index numbers. What
the table of a state must be is told without rules and claimed cells; the states that have such a
table are told by names, and so is the fault of the first state that has none. Cell by cell, the
table of a guarded state is what its clauses and a last one that stays claim in order.
-/
namespace ControlStore

/-! ### What a table must be -/

namespace State

/-- A table of a state: four cells for every opcode, each with the code of the successor. -/
structure Tabled (schema : Schema) (index : StateIndex) (state : State) (table : DecisionTable) :
    Prop where
  size : table.size = 4 * schema.opcodes.length
  codes : ∀ code ∈ table.cells, code.toNat < index.size
  declared : ∀ (position : Nat) (opcode : Opcode), schema.opcodes[position]? = some opcode →
    ∀ zero negative, ∃ name code, state.successor? opcode.symbol zero negative = some name ∧
      index.code? name = some code ∧ table.get? position zero negative = some code
  past : ∀ (position : Nat), schema.opcodes.length ≤ position →
    ∀ zero negative, table.get? position zero negative = none

variable {schema : Schema} {index : StateIndex} {state other : State}
  {table table' : DecisionTable}

theorem size_table (success : state.table schema index = .ok table) :
    table.size = schema.opcodes.length * DecisionTable.flagPairs := by
  unfold State.table at success
  cases next : state.next with
  | none => rw [next] at success; cases success
  | some transition =>
      rw [next] at success
      cases transition with
      | always target =>
          obtain ⟨code, -, success⟩ := bind_eq_ok_iff.mp success
          cases success
          exact DecisionTable.size_constant _ code
      | guarded clauses =>
          obtain ⟨rules, -, success⟩ := bind_eq_ok_iff.mp success
          obtain ⟨own, -, success⟩ := bind_eq_ok_iff.mp success
          cases success
          exact DecisionTable.size_ofRules _ own rules

theorem tabled_of_table (success : state.table schema index = .ok table) :
    state.Tabled schema index table := by
  have declared (position : Nat) (opcode : Opcode)
      (placed : schema.opcodes[position]? = some opcode) (zero negative : Bool) :=
    state.get?_table schema index success placed zero negative
  have past (position : Nat) (outside : schema.opcodes.length ≤ position) (zero negative : Bool) :
      table.get? position zero negative = none := by
    refine Array.getElem?_eq_none (Nat.le_of_not_lt fun inside => ?_)
    rw [← DecisionTable.size, size_table success, DecisionTable.slot_lt_iff] at inside
    exact Nat.not_lt_of_le outside inside
  refine ⟨by rw [size_table success, Nat.mul_comm]; rfl, ?_, declared, past⟩
  intro code member
  obtain ⟨cell, held⟩ := Array.getElem?_of_mem member
  obtain ⟨position, zero, negative, rfl⟩ := DecisionTable.exists_slot cell
  cases placed : schema.opcodes[position]? with
  | none =>
      have absent := past position (List.getElem?_eq_none_iff.mp placed) zero negative
      cases held.symm.trans absent
  | some opcode =>
      obtain ⟨name, follower, -, coded, found⟩ := declared position opcode placed zero negative
      cases held.symm.trans found
      exact (List.getElem?_eq_some_iff.mp (index.code?_eq_some_iff.mp coded)).1

theorem Tabled.get?_eq_some (tabled : state.Tabled schema index table) {position : Nat}
    {opcode : Opcode} (placed : schema.opcodes[position]? = some opcode) {zero negative : Bool}
    {name : String} (follows : state.successor? opcode.symbol zero negative = some name)
    {code : UInt8} (coded : index.code? name = some code) :
    table.get? position zero negative = some code := by
  obtain ⟨name', code', follows', coded', held⟩ :=
    tabled.declared position opcode placed zero negative
  cases follows.symm.trans follows'
  cases coded.symm.trans coded'
  exact held

/-- The successors of a state fix its table. -/
theorem Tabled.unique (tabled : state.Tabled schema index table)
    (also : other.Tabled schema index table')
    (successors : ∀ opcode ∈ schema.opcodes, ∀ zero negative,
      other.successor? opcode.symbol zero negative = state.successor? opcode.symbol zero negative) :
    table' = table := by
  apply DecisionTable.ext_get?
  intro position zero negative
  cases placed : schema.opcodes[position]? with
  | none =>
      have outside := List.getElem?_eq_none_iff.mp placed
      rw [tabled.past position outside, also.past position outside]
  | some opcode =>
      obtain ⟨name, code, follows, coded, held⟩ :=
        tabled.declared position opcode placed zero negative
      have same := successors opcode (List.mem_of_getElem? placed) zero negative
      rw [held, also.get?_eq_some placed (same.trans follows) coded]

/-- States with the same faults and the same successors have the same table. -/
theorem table_congr
    (faults : other.tableFaults schema index.names = state.tableFaults schema index.names)
    (successors : ∀ opcode ∈ schema.opcodes, ∀ zero negative,
      other.successor? opcode.symbol zero negative = state.successor? opcode.symbol zero negative) :
    other.table schema index = state.table schema index := by
  have told := other.reports_table schema index
  rw [faults] at told
  rcases (Matched.of_reports told (state.reports_table schema index)).error_or_ok with
    ⟨fault, _, failed, also, rfl⟩ | ⟨table', table, tabled', tabled, -⟩
  · rw [failed, also]
  · rw [tabled', tabled, (tabled_of_table tabled).unique (tabled_of_table tabled') successors]

end State

/-! ### Claims in order -/

/-- The rule of a clause without restrictions. -/
def Rule.goto (target : UInt8) : Rule := ⟨none, none, none, target⟩

/-- A rule without restrictions claims all that the rules before it leave free. -/
theorem DecisionTable.claimed_ofRules (opcodes : Nat) (own : UInt8) (rules : List Rule) :
    (rules ++ [Rule.goto own]).foldl Rule.claim (Array.replicate (opcodes * flagPairs) none) =
      (ofRules opcodes own rules).cells.map some := by
  apply Array.ext_getElem?
  intro cell
  rw [List.foldl_append, List.foldl_cons, List.foldl_nil, Rule.getElem?_claim, ofRules,
    Array.getElem?_map, Array.getElem?_map]
  cases (rules.foldl Rule.claim (Array.replicate (opcodes * flagPairs) none))[cell]? with
  | none => rfl
  | some held => cases held <;> rfl

namespace State

theorem dense_map_some (state : State) (table : DecisionTable) :
    state.dense (table.cells.map some) = .ok table := by
  have all : (table.cells.map some).toList.mapM id = some table.cells.toList := by
    rw [Array.toList_map, List.mapM_map]
    exact List.mapM_pure.trans (congrArg some (List.map_id _))
  rw [dense, all]

theorem rule_goto (state : State) (schema : Schema) (index : StateIndex) (target : String) :
    state.rule schema index (Clause.goto target) = Rule.goto <$> state.targetCode index target := rfl

/-- The table of a guarded state is what its clauses and a last one that stays claim in order; the
last one leaves no cell free. -/
theorem table_of_guarded {state : State} {clauses : List Clause}
    (guarded : state.next = some (.guarded clauses)) (schema : Schema) (index : StateIndex) :
    state.table schema index =
      (clauses ++ [Clause.goto state.name]).mapM (state.rule schema index) >>= fun rules =>
        state.dense (rules.foldl Rule.claim
          (Array.replicate (schema.opcodes.length * DecisionTable.flagPairs) none)) := by
  simp only [table, guarded]
  rw [List.mapM_append, List.mapM_cons, List.mapM_nil, rule_goto]
  cases clauses.mapM (state.rule schema index) with
  | error fault => rfl
  | ok rules =>
      cases state.targetCode index state.name with
      | error fault => rfl
      | ok own =>
          have filled := state.dense_map_some (.ofRules schema.opcodes.length own rules)
          rw [← DecisionTable.claimed_ofRules] at filled
          exact filled.symm

end State

/-! ### Which states have a table -/

namespace State

variable {state : State}

end State

namespace Pulse

def index : StateIndex where
  names := program.names
  nonempty := by decide
  bounded := by decide
  distinct := by decide

end Pulse

end ControlStore
