import ControlStore.Checked.Address
import ControlStore.Checked.Registry
import ControlStore.Microcode
import ControlStore.Microcode.CodeTable

set_option autoImplicit false

/-!
Compiling over a registry, cell by cell, and reading the tables and words that come out. Every
place, front, shift and byte is checked.
-/
namespace ControlStore.Checked

variable {ε : Type}

/-! ### Tables -/

/-- Gives a code to a cell unless the cell has one. -/
def claimCell (code : UInt8) (cells : Array (Option UInt8)) (cell : Nat) :
    Checked ε (Array (Option UInt8)) := do
  match ← read cells cell with
  | some _ => return cells
  | none => write cells cell (some code)

/-- Gives a rule's target to the cell of an opcode and the flags, if the rule accepts the flags. -/
def claimFlags (rule : Rule) (opcode : Nat) (zero : Bool) (cells : Array (Option UInt8))
    (negative : Bool) : Checked ε (Array (Option UInt8)) :=
  if rule.zero.all (· == zero) && rule.negative.all (· == negative) then
    claimCell rule.target cells (DecisionTable.slot opcode zero negative)
  else .ok cells

/-- Gives a rule's target to the free cells of an opcode, if the rule accepts the opcode. -/
def claimOpcode (rule : Rule) (cells : Array (Option UInt8)) (opcode : Nat) :
    Checked ε (Array (Option UInt8)) :=
  if rule.opcodes.all (·.contains opcode) then
    [false, true].foldlM (fun held zero =>
      [false, true].foldlM (claimFlags rule opcode zero) held) cells
  else .ok cells

/-- Gives a rule's target to the free cells that it accepts, opcode by opcode. -/
def claim (opcodes : Nat) (rule : Rule) (cells : Array (Option UInt8)) :
    Checked ε (Array (Option UInt8)) :=
  (List.range opcodes).foldlM (claimOpcode rule) cells

/-- The code of a state that a transition leads to. -/
def targetCode (codes : CodeTable) (state : State) (target : String) : Except CompileError UInt8 :=
  match codes.code? target with
  | some code => .ok code
  | none => .error (.unknownState state.name target)

/-- The position of an opcode that a clause lists. -/
def opcodeIndex (registry : Registry) (state : State) (symbol : String) : Except CompileError Nat :=
  match registry.indexOf? symbol with
  | some position => .ok position
  | none => .error (.unknownOpcode state.name symbol)

/-- The rule of a clause. The target is looked up before the opcodes. -/
def rule (registry : Registry) (codes : CodeTable) (state : State) (clause : Clause) :
    Except CompileError Rule := do
  let target ← targetCode codes state clause.target
  let opcodes ← match clause.opcodes with
    | none => .ok none
    | some symbols => some <$> symbols.mapM (opcodeIndex registry state)
  return ⟨opcodes, clause.zero, clause.negative, target⟩

/-- Gives the target of a clause to the free cells that the clause accepts. -/
def applyClause (registry : Registry) (codes : CodeTable) (state : State)
    (cells : Array (Option UInt8)) (clause : Clause) :
    Checked CompileError (Array (Option UInt8)) := do
  let found ← tell (rule registry codes state clause)
  claim registry.opcodes.size found cells

/-- The decision table of a state. Behind the clauses of a guarded state stands one that stays. -/
def table (registry : Registry) (codes : CodeTable) (state : State) :
    Checked CompileError DecisionTable :=
  let free := Array.replicate (registry.opcodes.size * DecisionTable.flagPairs) none
  match state.next with
  | none => .error (.told (.unresolvedTransition state.name))
  | some (.always target) => do
      let code ← tell (targetCode codes state target)
      tell (state.dense (free.map fun _ => some code))
  | some (.guarded clauses) => do
      let staying := clauses ++ [Clause.goto state.name]
      let cells ← staying.foldlM (applyClause registry codes state) free
      tell (state.dense cells)

/-! ### Programs -/

/-- A compiled program with the registry it was compiled against. -/
structure Microcode where
  registry : Registry
  codes : CodeTable
  tables : Array DecisionTable
  words : Array Nat

/-- Compiles a program. Names are checked first, then all transitions, then all records. -/
def compile (registry : Registry) (program : Program) : Checked CompileError Microcode := do
  let codes ← tell (CodeTable.build program.states)
  let tables ← program.states.mapM (table registry codes)
  let words ← program.states.mapM fun state =>
    tell (state.control.word registry.defaults state.name)
  return ⟨registry, codes, tables.toArray, words.toArray⟩

namespace Microcode

/-- The next code at an address; none past the last state and for a code without an opcode. The
table of codes must have a place for the opcode, and the state's table a cell for its position. -/
def lookup? (m : Microcode) (address : Address) : Checked ε (Option UInt8) :=
  match m.tables[address.state.toNat]? with
  | none => .ok none
  | some table => do
      match ← read m.registry.byCode address.opcode.toNat with
      | none => return none
      | some position =>
          some <$> read table.cells (DecisionTable.slot position address.zero address.negative)

/-- The decision ROM byte at an address. -/
def decisionByte (m : Microcode) (address : Nat) : Checked ε UInt8 := do
  let fields ← decode m.registry.geometry (BitVec.ofNat 64 address)
  let next ← m.lookup? fields
  return next.getD fields.state

/-- The decision ROM, one next code per address. -/
def decisionRom (m : Microcode) : Checked ε (Array UInt8) := do
  let length ← power m.registry.geometry.addressBits
  let bytes ← (List.range length.toNat).mapM m.decisionByte
  return bytes.toArray

/-- The control ROM, one word per state that an address can hold. -/
def controlRom (m : Microcode) : Checked ε (Array Nat) := do
  let space ← power m.registry.geometry.stateBits
  front m.words (min m.codes.size space.toNat)

end Microcode

end ControlStore.Checked
