import ControlStore.Program.Successor
import ControlStore.Proofs.FirstFault
import ControlStore.Proofs.Lookup
import ControlStore.Microcode.DecisionTable

set_option autoImplicit false

/-!
Decision tables mean first match. Claiming free cells rule by rule leaves in each cell the target
of the first rule that accepts it, so a state's table holds the code of its successor for every
opcode and every pair of flags, whatever index the codes come from.
-/
namespace ControlStore

open DecisionTable (slot)

namespace Rule

theorem getElem?_claim (cells : Array (Option UInt8)) (rule : Rule) (cell : Nat) :
    (claim cells rule)[cell]? = cells[cell]?.map fun held =>
      held.or (if rule.acceptsCell cell then some rule.target else none) := by
  rw [claim, Array.getElem?_mapIdx]

/-- A cell that was held stays; a free cell goes to the first rule that accepts it. -/
theorem getElem?_foldl_claim (rules : List Rule) (cells : Array (Option UInt8)) (cell : Nat) :
    (rules.foldl claim cells)[cell]? = cells[cell]?.map fun held =>
      held.or ((rules.find? (·.acceptsCell cell)).map (·.target)) := by
  induction rules generalizing cells with
  | nil =>
      simp only [List.foldl_nil, List.find?_nil, Option.map_none, Option.or_none]
      rw [Option.map_id']
  | cons rule rest ih =>
      rw [List.foldl_cons, ih, getElem?_claim, Option.map_map]
      congr 1
      funext held
      -- The rule claims the cell before the rest see it, or leaves it as it was.
      rw [Function.comp_apply, List.find?_cons, Option.or_assoc]
      cases rule.acceptsCell cell <;> rfl

theorem size_foldl_claim (rules : List Rule) (cells : Array (Option UInt8)) :
    (rules.foldl claim cells).size = cells.size := by
  induction rules generalizing cells with
  | nil => rfl
  | cons rule rest ih => rw [List.foldl_cons, ih, claim, Array.size_mapIdx]

theorem acceptsCell_slot (rule : Rule) (opcode : Nat) (zero negative : Bool) :
    rule.acceptsCell (slot opcode zero negative) =
      (rule.opcodes.all (·.contains opcode) && rule.zero.all (· == zero) &&
        rule.negative.all (· == negative)) := by
  rw [acceptsCell, DecisionTable.slot_div, DecisionTable.slot_testBit_one,
    DecisionTable.slot_testBit_zero]

end Rule

namespace DecisionTable

/-- Every cell belongs to an opcode's position and a pair of flags. -/
theorem exists_slot (cell : Nat) : ∃ opcode zero negative, slot opcode zero negative = cell := by
  refine ⟨cell / flagPairs, cell.testBit 1, cell.testBit 0, ?_⟩
  simp only [slot, flagPairs, Nat.toNat_testBit]
  omega

/-- Tables are told apart by what they hold for opcodes and flags. -/
theorem ext_get? {first second : DecisionTable}
    (same : ∀ opcode zero negative,
      first.get? opcode zero negative = second.get? opcode zero negative) : first = second := by
  have cells : first.cells = second.cells := by
    apply Array.ext_getElem?
    intro cell
    obtain ⟨opcode, zero, negative, rfl⟩ := exists_slot cell
    exact same opcode zero negative
  cases first
  cases second
  cases cells
  rfl

theorem size_constant (opcodes : Nat) (code : UInt8) :
    (constant opcodes code).size = opcodes * flagPairs :=
  Array.size_replicate

theorem size_ofRules (opcodes : Nat) (own : UInt8) (rules : List Rule) :
    (ofRules opcodes own rules).size = opcodes * flagPairs := by
  rw [size, ofRules, Array.size_map, Rule.size_foldl_claim, Array.size_replicate]

theorem get?_constant (opcodes opcode : Nat) (code : UInt8) (zero negative : Bool) :
    (constant opcodes code).get? opcode zero negative =
      if opcode < opcodes then some code else none := by
  simp only [get?, constant, Array.getElem?_replicate, slot_lt_iff]

/-- A cell holds the target of the first rule that accepts it, or else the state's own code. -/
theorem get?_ofRules (opcodes opcode : Nat) (own : UInt8) (rules : List Rule)
    (zero negative : Bool) :
    (ofRules opcodes own rules).get? opcode zero negative =
      if opcode < opcodes then
        some (((rules.find? (·.acceptsCell (slot opcode zero negative))).map (·.target)).getD own)
      else none := by
  simp only [get?, ofRules, Array.getElem?_map, Rule.getElem?_foldl_claim,
    Array.getElem?_replicate, slot_lt_iff]
  split <;> simp

end DecisionTable

namespace State

theorem targetCode_eq_ok_iff (state : State) (index : StateIndex) {target : String}
    {code : UInt8} :
    state.targetCode index target = .ok code ↔ index.code? target = some code := by
  unfold targetCode
  cases index.code? target with
  | none => constructor <;> intro impossible <;> cases impossible
  | some found => rw [Except.ok.injEq, Option.some.injEq]

theorem opcodeIndex_eq_ok_iff (state : State) (schema : Schema) {symbol : String}
    {position : Nat} :
    state.opcodeIndex schema symbol = .ok position ↔ schema.indexOf? symbol = some position := by
  unfold opcodeIndex
  cases schema.indexOf? symbol with
  | none => constructor <;> intro impossible <;> cases impossible
  | some found => rw [Except.ok.injEq, Option.some.injEq]

/-- Filtering by positions is filtering by symbols. -/
theorem contains_opcodeFilter (state : State) (schema : Schema)
    {symbols : Option (List String)} {positions : Option (List Nat)}
    (success : state.opcodeFilter schema symbols = .ok positions)
    {position : Nat} {opcode : Opcode} (declared : schema.opcodes[position]? = some opcode) :
    positions.all (·.contains position) = symbols.all (·.contains opcode.symbol) := by
  have located : schema.indexOf? opcode.symbol = some position :=
    schema.indexOf?_eq_some_iff.mpr (by rw [declared, Option.map_some])
  cases symbols with
  | none =>
      cases success
      rfl
  | some listed =>
      obtain ⟨indices, found, rfl⟩ := map_eq_ok_iff.mp success
      rw [Option.all_some, Option.all_some, Bool.eq_iff_iff, List.contains_iff_mem,
        List.contains_iff_mem, mem_of_mapM_eq_ok found]
      constructor
      · intro collected
        obtain ⟨symbol, member, same⟩ := collected
        have named := schema.indexOf?_eq_some_iff.mp
          ((state.opcodeIndex_eq_ok_iff schema).mp same)
        rw [declared, Option.map_some, Option.some.injEq] at named
        exact named ▸ member
      · intro member
        exact ⟨opcode.symbol, member, (state.opcodeIndex_eq_ok_iff schema).mpr located⟩

/-- A rule has its clause's target and accepts what its clause accepts. -/
theorem rule_spec (state : State) (schema : Schema) (index : StateIndex) {clause : Clause}
    {rule : Rule} (success : state.rule schema index clause = .ok rule) :
    index.code? clause.target = some rule.target ∧
      ∀ (position : Nat) (opcode : Opcode) (zero negative : Bool),
        schema.opcodes[position]? = some opcode →
          rule.acceptsCell (slot position zero negative) =
            clause.accepts opcode.symbol zero negative := by
  unfold State.rule at success
  obtain ⟨code, target, success⟩ := bind_eq_ok_iff.mp success
  obtain ⟨positions, filtered, success⟩ := bind_eq_ok_iff.mp success
  cases success
  refine ⟨(state.targetCode_eq_ok_iff index).mp target, ?_⟩
  intro position opcode zero negative declared
  rw [Rule.acceptsCell_slot, contains_opcodeFilter state schema filtered declared, Bool.and_assoc]
  rfl

/-- The first rule that accepts a cell is the rule of the first clause that accepts its opcode and
flags. -/
theorem find?_rules (state : State) (schema : Schema) (index : StateIndex) {clauses : List Clause}
    {rules : List Rule} (success : clauses.mapM (state.rule schema index) = .ok rules)
    {position : Nat} {opcode : Opcode} (declared : schema.opcodes[position]? = some opcode)
    (zero negative : Bool) :
    (rules.find? (·.acceptsCell (slot position zero negative))).map (some ·.target) =
      (clauses.find? (·.accepts opcode.symbol zero negative)).map (index.code? ·.target) := by
  induction clauses generalizing rules with
  | nil => cases success; rfl
  | cons clause rest ih =>
      rw [List.mapM_cons] at success
      obtain ⟨rule, here, success⟩ := bind_eq_ok_iff.mp success
      obtain ⟨others, later, success⟩ := bind_eq_ok_iff.mp success
      cases success
      obtain ⟨target, accepts⟩ := rule_spec state schema index here
      rw [List.find?_cons, List.find?_cons, accepts position opcode zero negative declared]
      cases clause.accepts opcode.symbol zero negative with
      | true => rw [Option.map_some, Option.map_some, target]
      | false => exact ih later

/-- For a declared opcode a table holds the code of the state's successor. -/
theorem get?_table (state : State) (schema : Schema) (index : StateIndex) {table : DecisionTable}
    (success : state.table schema index = .ok table)
    {position : Nat} {opcode : Opcode} (declared : schema.opcodes[position]? = some opcode)
    (zero negative : Bool) :
    ∃ name code, state.successor? opcode.symbol zero negative = some name ∧
      index.code? name = some code ∧ table.get? position zero negative = some code := by
  have inside : position < schema.opcodes.length := (List.getElem?_eq_some_iff.mp declared).1
  unfold State.table at success
  unfold successor?
  cases next : state.next with
  | none => rw [next] at success; cases success
  | some transition =>
      rw [next] at success
      cases transition with
      | always target =>
          obtain ⟨code, found, success⟩ := bind_eq_ok_iff.mp success
          cases success
          refine ⟨target, code, rfl, (state.targetCode_eq_ok_iff index).mp found, ?_⟩
          rw [DecisionTable.get?_constant, if_pos inside]
      | guarded clauses =>
          obtain ⟨rules, ruled, success⟩ := bind_eq_ok_iff.mp success
          obtain ⟨own, self, success⟩ := bind_eq_ok_iff.mp success
          cases success
          have first := find?_rules state schema index ruled declared zero negative
          rw [DecisionTable.get?_ofRules, if_pos inside]
          refine ⟨Clause.firstTarget state.name clauses opcode.symbol zero negative, _,
            rfl, ?_, rfl⟩
          unfold Clause.firstTarget
          cases hit : clauses.find? (·.accepts opcode.symbol zero negative) with
          | none =>
              rw [hit, Option.map_none, Option.map_eq_none_iff] at first
              rw [first]
              exact (state.targetCode_eq_ok_iff index).mp self
          | some clause =>
              rw [hit, Option.map_some, Option.map_eq_some_iff] at first
              obtain ⟨rule, located, same⟩ := first
              rw [located]
              exact same.symm

end State

end ControlStore
