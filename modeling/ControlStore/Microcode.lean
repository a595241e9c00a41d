import ControlStore.Address
import ControlStore.ControlWord
import ControlStore.Microcode.DecisionTable

set_option autoImplicit false

/-!
Compiled programs: a decision table and a control word for every state.
-/
namespace ControlStore

/-- A program's states by code, with their tables and words. -/
structure Microcode where
  schema : Schema
  index : StateIndex
  tables : Array DecisionTable
  words : Array Nat

/-- The control values of a record over the defaults; every name must be a signal. -/
def Record.assignment (defaults : Assignment) (state : String) (record : Record) :
    Except CompileError Assignment :=
  match record.unknownName? with
  | some field => .error (.schemaViolation state field)
  | none => .ok (record.overlay defaults)

/-- The control word of a record over the defaults. -/
def Record.word (defaults : Assignment) (state : String) (record : Record) :
    Except CompileError Nat :=
  ControlWord.pack <$> record.assignment defaults state

/-- Compiles a program. Names are checked first, then all transitions, then all records. -/
def compile (schema : Schema) (program : Program) : Except CompileError Microcode := do
  let index ← StateIndex.build program.names
  let tables ← resolve schema index program.states
  let words ← program.states.mapM fun state => state.control.word schema.defaults state.name
  return ⟨schema, index, tables.toArray, words.toArray⟩

namespace Microcode

def states (m : Microcode) : List String := m.index.names

def codeOf? (m : Microcode) (state : String) : Option UInt8 := m.index.code? state

/-- The decision table of a state. -/
def table? (m : Microcode) (state : String) : Option DecisionTable :=
  (m.codeOf? state).bind fun code => m.tables[code.toNat]?

/-- The control word of a state. -/
def word? (m : Microcode) (state : String) : Option Nat :=
  (m.codeOf? state).bind fun code => m.words[code.toNat]?

/-- The name of the state that follows; none if the state or the symbol is unknown. -/
def next? (m : Microcode) (state symbol : String) (zero negative : Bool) : Option String := do
  let position ← m.schema.indexOf? symbol
  let table ← m.table? state
  let code ← table.get? position zero negative
  m.index.name? code

/-- The next code at an address; none past the last state and for a code without an opcode. -/
def lookup? (m : Microcode) (address : Address) : Option UInt8 := do
  let table ← m.tables[address.state.toNat]?
  let position ← m.schema.indexOfCode? address.opcode
  table.get? position address.zero address.negative

end Microcode

end ControlStore
