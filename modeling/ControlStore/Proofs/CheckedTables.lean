import ControlStore.Checked.Microcode
import ControlStore.Proofs.CheckedRegistry
import ControlStore.Proofs.ResolvedTables
import ControlStore.Proofs.StateCodes

set_option autoImplicit false

/-!
Claims stay inside of the cells. A table has four cells to an opcode, so that a loop over the
opcodes and the flags visits each cell once, from the first to the last; cell by cell it claims what
a rule claims at once. Tables, words and codes then come out as they do without checks.
-/
namespace ControlStore

open DecisionTable (slot flagPairs)

namespace Rule

variable {rule : Rule} {cells : Array (Option UInt8)}

/-- Gives the rule's target to the free cells before a bound that it accepts. -/
def claimBelow (rule : Rule) (bound : Nat) (cells : Array (Option UInt8)) :
    Array (Option UInt8) :=
  cells.mapIdx fun cell held =>
    held.or (if cell < bound ∧ rule.acceptsCell cell then some rule.target else none)

theorem getElem?_claimBelow (rule : Rule) (bound : Nat) (cells : Array (Option UInt8))
    (cell : Nat) :
    (rule.claimBelow bound cells)[cell]? = cells[cell]?.map fun held =>
      held.or (if cell < bound ∧ rule.acceptsCell cell then some rule.target else none) := by
  rw [claimBelow, Array.getElem?_mapIdx]

@[simp] theorem size_claimBelow (rule : Rule) (bound : Nat) (cells : Array (Option UInt8)) :
    (rule.claimBelow bound cells).size = cells.size := by
  rw [claimBelow, Array.size_mapIdx]

@[simp] theorem size_claim (rule : Rule) (cells : Array (Option UInt8)) :
    (rule.claim cells).size = cells.size := by
  rw [claim, Array.size_mapIdx]

theorem claimBelow_zero (rule : Rule) (cells : Array (Option UInt8)) :
    rule.claimBelow 0 cells = cells := by
  apply Array.ext_getElem?
  intro cell
  simp [getElem?_claimBelow]

/-- Below the number of cells are all cells. -/
theorem claimBelow_size (rule : Rule) (cells : Array (Option UInt8)) :
    rule.claimBelow cells.size cells = rule.claim cells := by
  apply Array.ext_getElem?
  intro cell
  rw [getElem?_claimBelow, getElem?_claim]
  by_cases inside : cell < cells.size
  · simp [inside]
  · simp [Array.getElem?_eq_none (Nat.le_of_not_lt inside)]

/-- The cell at the bound is as it was. -/
theorem getElem?_claimBelow_self (rule : Rule) (cells : Array (Option UInt8)) (cell : Nat) :
    (rule.claimBelow cell cells)[cell]? = cells[cell]? := by
  simp [getElem?_claimBelow]

/-- One cell more, which the rule accepts, is claimed unless it is held. -/
theorem getElem?_claimBelow_succ {cell : Nat} (accepted : rule.acceptsCell cell = true)
    (other : Nat) :
    (rule.claimBelow (cell + 1) cells)[other]? =
      if cell = other then cells[cell]?.map (·.or (some rule.target))
      else (rule.claimBelow cell cells)[other]? := by
  rw [getElem?_claimBelow, getElem?_claimBelow]
  by_cases here : cell = other
  · subst here
    simp [accepted]
  · have same : other < cell + 1 ↔ other < cell := by omega
    rw [if_neg here]
    simp only [same]

/-- Cells that the rule rejects are not claimed. -/
theorem claimBelow_of_rejects {low high : Nat} (ordered : low ≤ high)
    (rejected : ∀ cell, low ≤ cell → cell < high → rule.acceptsCell cell = false) :
    rule.claimBelow high cells = rule.claimBelow low cells := by
  apply Array.ext_getElem?
  intro cell
  rw [getElem?_claimBelow, getElem?_claimBelow]
  have same : (cell < high ∧ rule.acceptsCell cell = true) ↔
      (cell < low ∧ rule.acceptsCell cell = true) := by
    constructor
    · rintro ⟨below, accepted⟩
      refine ⟨Nat.lt_of_not_le fun above => ?_, accepted⟩
      rw [rejected cell above below] at accepted
      cases accepted
    · rintro ⟨below, accepted⟩
      exact ⟨Nat.lt_of_lt_of_le below ordered, accepted⟩
  simp only [same]

end Rule

namespace Checked

variable {ε : Type} {rule : Rule} {cells : Array (Option UInt8)}

/-! ### One rule -/

/-- The next cell is claimed, if it is free, as the cells before it were. -/
theorem claimCell_eq {cell : Nat} (inside : cell < cells.size)
    (accepted : rule.acceptsCell cell = true) :
    (claimCell rule.target (rule.claimBelow cell cells) cell : Checked ε _) =
      .ok (rule.claimBelow (cell + 1) cells) := by
  have held := rule.getElem?_claimBelow_self cells cell
  rw [Array.getElem?_eq_getElem inside] at held
  rw [claimCell, read_of_getElem? held, ok_bind]
  cases free : cells[cell] with
  | some code =>
      refine congrArg Except.ok (Array.ext_getElem? fun other => ?_)
      rw [Rule.getElem?_claimBelow_succ accepted]
      split
      · rename_i here
        rw [← here, held, Array.getElem?_eq_getElem inside, free]
        rfl
      · rfl
  | none =>
      have there : cell < (rule.claimBelow cell cells).size := by rwa [Rule.size_claimBelow]
      refine (write_of_lt there _).trans (congrArg Except.ok (Array.ext_getElem? fun other => ?_))
      rw [Rule.getElem?_claimBelow_succ accepted, Array.getElem?_set]
      split
      · rw [Array.getElem?_eq_getElem inside, free]
        rfl
      · rfl

/-- The cell of the flags comes next: it is claimed if the rule accepts it, and else passed by. -/
theorem claimFlags_eq {opcode cell : Nat} {zero negative : Bool}
    (place : slot opcode zero negative = cell) (inside : cell < cells.size)
    (listed : rule.opcodes.all (·.contains opcode) = true) :
    (claimFlags rule opcode zero (rule.claimBelow cell cells) negative : Checked ε _) =
      .ok (rule.claimBelow (cell + 1) cells) := by
  have accepts := rule.acceptsCell_slot opcode zero negative
  rw [place, listed, Bool.true_and] at accepts
  rw [claimFlags, ← accepts, place]
  split
  · rename_i accepted
    exact claimCell_eq inside accepted
  · rename_i rejected
    refine congrArg Except.ok (Rule.claimBelow_of_rejects (Nat.le_succ cell) ?_).symm
    intro other above below
    rw [Nat.le_antisymm (Nat.le_of_lt_succ below) above]
    exact Bool.eq_false_iff.mpr rejected

/-- The cells of the next opcode are claimed, in the order of the flags. -/
theorem claimOpcode_eq {opcode : Nat} (inside : (opcode + 1) * flagPairs ≤ cells.size) :
    (claimOpcode rule (rule.claimBelow (opcode * flagPairs) cells) opcode : Checked ε _) =
      .ok (rule.claimBelow ((opcode + 1) * flagPairs) cells) := by
  have next : (opcode + 1) * flagPairs = opcode * flagPairs + 1 + 1 + 1 + 1 := Nat.succ_mul ..
  rw [claimOpcode]
  split
  · rename_i listed
    rw [next] at inside ⊢
    have visit (zero negative : Bool) (cell : Nat) (place : slot opcode zero negative = cell)
        (there : cell < cells.size) :
        (claimFlags rule opcode zero (rule.claimBelow cell cells) negative : Checked ε _) =
          .ok (rule.claimBelow (cell + 1) cells) := claimFlags_eq place there listed
    simp only [List.foldlM_cons, List.foldlM_nil, bind_pure]
    rw [visit false false (opcode * flagPairs) rfl (by omega), ok_bind,
      visit false true (opcode * flagPairs + 1) rfl (by omega), ok_bind,
      visit true false (opcode * flagPairs + 1 + 1) rfl (by omega), ok_bind,
      visit true true (opcode * flagPairs + 1 + 1 + 1) rfl (by omega)]
  · rename_i unlisted
    refine congrArg Except.ok (Rule.claimBelow_of_rejects (by omega) ?_).symm
    intro cell above below
    have place : cell / flagPairs = opcode :=
      Nat.div_eq_of_lt_le above below
    rw [Rule.acceptsCell, place, Bool.eq_false_iff.mpr unlisted]
    rfl

/-- A loop over the first opcodes claims the cells of these opcodes. -/
theorem foldlM_claimOpcode (opcodes : Nat) (inside : opcodes * flagPairs ≤ cells.size) :
    ((List.range opcodes).foldlM (claimOpcode rule) cells : Checked ε _) =
      .ok (rule.claimBelow (opcodes * flagPairs) cells) := by
  -- After some opcodes exactly the cells below four times their number are done.
  induction opcodes with
  | zero =>
      rw [Nat.zero_mul, Rule.claimBelow_zero]
      rfl
  | succ opcode ih =>
      have before := ih (Nat.le_trans (Nat.mul_le_mul_right _ (Nat.le_succ opcode)) inside)
      rw [List.range_succ, List.foldlM_append, before, ok_bind, List.foldlM_cons,
        claimOpcode_eq inside, ok_bind]
      rfl

/-- All places that a rule's loop visits are there, if there are four cells to an opcode, and the
loop claims what the rule claims. -/
theorem claim_eq {opcodes : Nat} (size : cells.size = opcodes * flagPairs) :
    (claim opcodes rule cells : Checked ε _) = .ok (rule.claim cells) := by
  rw [claim, foldlM_claimOpcode opcodes (Nat.le_of_eq size.symm), ← size, Rule.claimBelow_size]

/-! ### One state -/

variable {registry : Registry} {schema : Schema} {codes : CodeTable} {index : StateIndex}

theorem targetCode_eq (numbers : codes.Numbers index) (state : State) (target : String) :
    targetCode codes state target = state.targetCode index target := by
  rw [targetCode, numbers.code?_eq]
  rfl

theorem opcodeIndex_eq (holds : registry.Holds schema) (state : State) (symbol : String) :
    opcodeIndex registry state symbol = state.opcodeIndex schema symbol := by
  rw [opcodeIndex, holds.indexOf?_eq]
  rfl

theorem rule_eq (holds : registry.Holds schema) (numbers : codes.Numbers index) (state : State)
    (clause : Clause) :
    Checked.rule registry codes state clause = state.rule schema index clause := by
  have symbols : opcodeIndex registry state = state.opcodeIndex schema :=
    funext (opcodeIndex_eq holds state)
  rw [Checked.rule, targetCode_eq numbers, symbols]
  cases listed : clause.opcodes <;> simp only [State.rule, State.opcodeFilter, listed]

theorem applyClause_eq (holds : registry.Holds schema) (numbers : codes.Numbers index)
    (state : State) (clause : Clause) (size : cells.size = schema.opcodes.length * flagPairs) :
    applyClause registry codes state cells clause =
      tell ((·.claim cells) <$> state.rule schema index clause) := by
  rw [applyClause, rule_eq holds numbers]
  cases state.rule schema index clause with
  | error fault => rfl
  | ok found => exact claim_eq (holds.size_opcodes ▸ size)

/-- Clauses applied one by one claim what their rules claim in order. -/
theorem foldlM_applyClause (holds : registry.Holds schema) (numbers : codes.Numbers index)
    (state : State) (clauses : List Clause)
    (size : cells.size = schema.opcodes.length * flagPairs) :
    clauses.foldlM (applyClause registry codes state) cells =
      tell ((·.foldl Rule.claim cells) <$> clauses.mapM (state.rule schema index)) := by
  induction clauses generalizing cells with
  | nil => rfl
  | cons clause rest ih =>
      rw [List.foldlM_cons, List.mapM_cons, applyClause_eq holds numbers state clause size]
      cases state.rule schema index clause with
      | error fault => rfl
      | ok found =>
          have kept : (found.claim cells).size = schema.opcodes.length * flagPairs := by
            rwa [Rule.size_claim]
          refine (ih kept).trans ?_
          cases rest.mapM (state.rule schema index) <;> rfl

/-- The table of a state is made without an access outside of its cells. -/
theorem table_eq (holds : registry.Holds schema) (numbers : codes.Numbers index) (state : State) :
    table registry codes state = tell (state.table schema index) := by
  rw [table, holds.size_opcodes]
  cases next : state.next with
  | none => simp only [State.table, next, tell_error]
  | some transition =>
      cases transition with
      | always target =>
          -- Filling all cells with a code gives the constant table.
          have filled (code : UInt8) : (Array.replicate (schema.opcodes.length * flagPairs)
              (none : Option UInt8)).map (fun _ => some code) =
                (DecisionTable.constant schema.opcodes.length code).cells.map some := by
            rw [DecisionTable.constant, Array.map_replicate, Array.map_replicate]
          simp only [State.table, next, targetCode_eq numbers, filled, State.dense_map_some]
          rw [tell_bind]
          rfl
      | guarded clauses =>
          rw [State.table_of_guarded next, tell_bind]
          simp only [foldlM_applyClause holds numbers state _ Array.size_replicate, tell_map]
          cases (clauses ++ [Clause.goto state.name]).mapM (state.rule schema index) <;> rfl

/-! ### A program -/

namespace Microcode

/-- A program compiled with checks is the one that is compiled without, over a registry that holds
the schema. -/
structure Holds (m : Checked.Microcode) (plain : ControlStore.Microcode) : Prop where
  registry : m.registry.Holds plain.schema
  codes : m.codes.Numbers plain.index
  tables_eq : m.tables = plain.tables
  words_eq : m.words = plain.words

end Microcode

/-- A program is compiled, or refused, as it is without checks. -/
theorem compile_runsAs (holds : registry.Holds schema) (program : Program) :
    RunsAs Microcode.Holds (compile registry program) (ControlStore.compile schema program) := by
  unfold compile ControlStore.compile
  refine (runsAs_of_matched (CodeTable.build_matched program.states)).bind ?_
  intro codes index numbers
  have tables : program.states.mapM (table registry codes) =
      tell (resolve schema index program.states) := by
    rw [resolve, tell_mapM]
    exact congrArg (List.mapM · program.states) (funext (table_eq holds numbers))
  rw [tables]
  refine (runsAs_tell _).bind_eq fun resolved => ?_
  rw [← tell_mapM, holds.defaults_eq]
  refine (runsAs_tell _).bind_eq fun words => ?_
  exact ⟨holds, numbers, rfl, rfl⟩

end Checked

end ControlStore
