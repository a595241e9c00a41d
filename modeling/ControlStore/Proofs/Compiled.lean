import ControlStore.Microcode
import ControlStore.Proofs.FirstMatch

set_option autoImplicit false

/-!
What a successful compilation consists of, state by state, and what its look-ups by address mean
for the symbolic program.
-/
namespace ControlStore

/-- Every state of the program has its name, table and word at its own position. -/
structure Compiled (schema : Schema) (program : Program) (m : Microcode) : Prop where
  schema_eq : m.schema = schema
  names_eq : m.index.names = program.names
  tables_size : m.tables.size = program.size
  words_size : m.words.size = program.size
  table_at : ∀ (i : Nat) (state : State), program.states[i]? = some state →
    ∃ table, m.tables[i]? = some table ∧ state.table schema m.index = .ok table
  word_at : ∀ (i : Nat) (state : State), program.states[i]? = some state →
    ∃ word, m.words[i]? = some word ∧ state.control.word schema.defaults state.name = .ok word

theorem compiled_of_compile {schema : Schema} {program : Program} {m : Microcode}
    (success : compile schema program = .ok m) : Compiled schema program m := by
  unfold compile at success
  obtain ⟨index, built, success⟩ := bind_eq_ok_iff.mp success
  obtain ⟨tables, resolved, success⟩ := bind_eq_ok_iff.mp success
  obtain ⟨words, packed, success⟩ := bind_eq_ok_iff.mp success
  cases success
  obtain ⟨tablesLength, tableAt⟩ := mapM_eq_ok_getElem? resolved
  obtain ⟨wordsLength, wordAt⟩ := mapM_eq_ok_getElem? packed
  exact
    { schema_eq := rfl
      names_eq := StateIndex.names_of_build built
      tables_size := tablesLength
      words_size := wordsLength
      table_at := by simpa only [List.getElem?_toArray] using tableAt
      word_at := by simpa only [List.getElem?_toArray] using wordAt }

/-- Results that stand at the positions of their items are told from the items. -/
private theorem getElem?_of_pointwise {ε α β : Type} {check : α → Except ε β} {items : List α}
    {results : Array β} (size : results.size = items.length)
    (pointwise : ∀ (i : Nat) (item : α), items[i]? = some item →
      ∃ result, results[i]? = some result ∧ check item = .ok result) (i : Nat) :
    results[i]? = (items[i]?).bind fun item => (check item).toOption := by
  cases located : items[i]? with
  | none =>
      have past := List.getElem?_eq_none_iff.mp located
      rw [Array.getElem?_eq_none (size ▸ past), Option.bind_none]
  | some item =>
      obtain ⟨result, held, checked⟩ := pointwise i item located
      rw [held, Option.bind_some, checked]
      rfl

/-- Neither an unknown symbol nor an unknown state leads anywhere. -/
theorem Microcode.next?_eq_none (m : Microcode) {state symbol : String} {zero negative : Bool}
    (unknown : symbol ∉ m.schema.opcodes.map (·.symbol) ∨ m.codeOf? state = none) :
    m.next? state symbol zero negative = none := by
  unfold Microcode.next?
  rcases unknown with symbolUnknown | stateUnknown
  · rw [m.schema.indexOf?_eq_none_iff.mpr symbolUnknown]
    rfl
  · cases m.schema.indexOf? symbol with
    | none => rfl
    | some position =>
        simp only [Microcode.table?, stateUnknown, Option.bind_eq_bind, Option.bind_some,
          Option.bind_none]

namespace Compiled

variable {schema : Schema} {program : Program} {m : Microcode}

theorem getElem?_tables (compiled : Compiled schema program m) (i : Nat) :
    m.tables[i]? = (program.states[i]?).bind fun state =>
      (state.table schema m.index).toOption :=
  getElem?_of_pointwise compiled.tables_size compiled.table_at i

theorem getElem?_words (compiled : Compiled schema program m) (i : Nat) :
    m.words[i]? = (program.states[i]?).bind fun state =>
      (state.control.word schema.defaults state.name).toOption :=
  getElem?_of_pointwise compiled.words_size compiled.word_at i

/-- The code of a state is its position in the program. -/
theorem codeOf?_eq_some_iff (compiled : Compiled schema program m) {name : String}
    {code : UInt8} :
    m.codeOf? name = some code ↔ program.names[code.toNat]? = some name := by
  rw [Microcode.codeOf?, m.index.code?_eq_some_iff, compiled.names_eq]

theorem names_nodup (compiled : Compiled schema program m) : program.names.Nodup :=
  compiled.names_eq ▸ m.index.distinct

theorem index_size (compiled : Compiled schema program m) : m.index.size = program.size := by
  rw [StateIndex.size, compiled.names_eq, Program.names, List.length_map, Program.size]

/-- A name with a code is the name of the state at that position. -/
theorem exists_state (compiled : Compiled schema program m) {name : String} {code : UInt8}
    (coded : m.codeOf? name = some code) :
    ∃ state, program.states[code.toNat]? = some state ∧ state.name = name := by
  have named := compiled.codeOf?_eq_some_iff.mp coded
  rw [Program.names, List.getElem?_map] at named
  exact Option.map_eq_some_iff.mp named

theorem code_lt_size (compiled : Compiled schema program m) {name : String} {code : UInt8}
    (coded : m.codeOf? name = some code) : code.toNat < program.size := by
  obtain ⟨state, located, -⟩ := compiled.exists_state coded
  exact (List.getElem?_eq_some_iff.mp located).1

theorem state?_eq_some (compiled : Compiled schema program m) {state : State} {i : Nat}
    (located : program.states[i]? = some state) : program.state? state.name = some state :=
  (find?_key_eq_some_iff State.name compiled.names_nodup state.name state).mpr
    ⟨List.mem_of_getElem? located, rfl⟩

theorem state?_eq_none (compiled : Compiled schema program m) {name : String}
    (unknown : m.codeOf? name = none) : program.state? name = none := by
  have absent := m.index.code?_eq_none_iff.mp unknown
  rw [compiled.names_eq] at absent
  refine List.find?_eq_none.mpr fun state member same => ?_
  exact absent (eq_of_beq same ▸ List.mem_map_of_mem member)

theorem successor?_eq (compiled : Compiled schema program m) {state : State} {i : Nat}
    (located : program.states[i]? = some state) (symbol : String) (zero negative : Bool) :
    program.successor? state.name symbol zero negative =
      state.successor? symbol zero negative := by
  rw [Program.successor?, compiled.state?_eq_some located, Option.bind_some]

/-- The table of a state leads every declared opcode to the state's successor. -/
theorem table_successor (compiled : Compiled schema program m) {i position : Nat} {state : State}
    {opcode : Opcode} (located : program.states[i]? = some state)
    (declared : schema.opcodes[position]? = some opcode) (zero negative : Bool) :
    ∃ table name code, m.tables[i]? = some table ∧
      table.get? position zero negative = some code ∧
      state.successor? opcode.symbol zero negative = some name ∧
      m.codeOf? name = some code := by
  obtain ⟨table, tabled, resolved⟩ := compiled.table_at i state located
  obtain ⟨name, code, successor, coded, held⟩ :=
    state.get?_table schema m.index resolved declared zero negative
  exact ⟨table, name, code, tabled, held, successor, coded⟩

/-- By name a compiled program moves as the symbolic program does. -/
theorem next?_successor (compiled : Compiled schema program m) {name : String} {code : UInt8}
    (coded : m.codeOf? name = some code) {opcode : Opcode} (declared : opcode ∈ schema.opcodes)
    (zero negative : Bool) :
    ∃ next, m.next? name opcode.symbol zero negative = some next ∧
      program.successor? name opcode.symbol zero negative = some next := by
  obtain ⟨state, located, rfl⟩ := compiled.exists_state coded
  obtain ⟨position, placed⟩ := List.getElem?_of_mem declared
  obtain ⟨table, next, cell, tabled, held, successor, celled⟩ :=
    compiled.table_successor located placed zero negative
  have indexed : m.schema.indexOf? opcode.symbol = some position := by
    rw [compiled.schema_eq, schema.indexOf?_eq_some_iff, placed, Option.map_some]
  have tableOf : m.table? state.name = some table := by
    rw [Microcode.table?, coded, Option.bind_some, tabled]
  have nameOf : m.index.name? cell = some next := m.index.code?_eq_some_iff.mp celled
  refine ⟨next, ?_, ?_⟩
  · simp only [Microcode.next?, indexed, tableOf, held, nameOf, Option.bind_eq_bind,
      Option.bind_some]
  · rw [compiled.successor?_eq located, successor]

/-- The successor by name: that of the symbolic program, for the symbols that the schema has. -/
theorem next?_eq_successor? (compiled : Compiled schema program m) (name symbol : String)
    (zero negative : Bool) :
    m.next? name symbol zero negative =
      if symbol ∈ schema.opcodes.map (·.symbol) then
        program.successor? name symbol zero negative
      else none := by
  split
  · rename_i declared
    obtain ⟨opcode, member, rfl⟩ := List.mem_map.mp declared
    cases coded : m.codeOf? name with
    | none =>
        rw [m.next?_eq_none (Or.inr coded), Program.successor?, compiled.state?_eq_none coded,
          Option.bind_none]
    | some code =>
        obtain ⟨next, found, successor⟩ := compiled.next?_successor coded member zero negative
        rw [found, successor]
  · rename_i unknown
    exact m.next?_eq_none (Or.inl (compiled.schema_eq ▸ unknown))

/-- The word by name: that of the control record of the state. -/
theorem word?_eq (compiled : Compiled schema program m) (name : String) :
    m.word? name = (program.state? name).bind fun state =>
      (state.control.word schema.defaults state.name).toOption := by
  cases coded : m.codeOf? name with
  | none =>
      rw [Microcode.word?, coded, compiled.state?_eq_none coded]
      rfl
  | some code =>
      obtain ⟨state, located, rfl⟩ := compiled.exists_state coded
      rw [Microcode.word?, coded, Option.bind_some, compiled.getElem?_words, located,
        compiled.state?_eq_some located]

/-- At an address of a state and an opcode stands the code of the state's successor. -/
theorem lookup?_successor (compiled : Compiled schema program m) (address : Address)
    {state : State} {opcode : Opcode}
    (located : program.states[address.state.toNat]? = some state)
    (declared : opcode ∈ schema.opcodes) (coded : opcode.code = address.opcode) :
    ∃ name code, m.lookup? address = some code ∧
      state.successor? opcode.symbol address.zero address.negative = some name ∧
      m.codeOf? name = some code := by
  obtain ⟨position, placed⟩ := List.getElem?_of_mem declared
  have mapped : m.schema.indexOfCode? address.opcode = some position := by
    rw [compiled.schema_eq, schema.indexOfCode?_eq_some_iff, placed, Option.map_some, coded]
  obtain ⟨table, name, code, tabled, held, successor, named⟩ :=
    compiled.table_successor located placed address.zero address.negative
  refine ⟨name, code, ?_, successor, named⟩
  simp only [Microcode.lookup?, tabled, mapped, Option.bind_eq_bind, Option.bind_some, held]

/-- Past the last state there is nothing to look up. -/
theorem lookup?_past (compiled : Compiled schema program m) {address : Address}
    (past : program.size ≤ address.state.toNat) : m.lookup? address = none := by
  have absent : m.tables[address.state.toNat]? = none :=
    Array.getElem?_eq_none (compiled.tables_size ▸ past)
  simp only [Microcode.lookup?, absent, Option.bind_eq_bind, Option.bind_none]

/-- For a code without an opcode there is nothing to look up. -/
theorem lookup?_unmapped (compiled : Compiled schema program m) {address : Address}
    (unmapped : ∀ opcode ∈ schema.opcodes, opcode.code ≠ address.opcode) :
    m.lookup? address = none := by
  have absent : m.schema.indexOfCode? address.opcode = none := by
    rw [compiled.schema_eq]
    exact schema.indexOfCode?_eq_none_iff.mpr unmapped
  unfold Microcode.lookup?
  cases m.tables[address.state.toNat]? with
  | none => rfl
  | some table => simp only [absent, Option.bind_eq_bind, Option.bind_some, Option.bind_none]

end Compiled

end ControlStore
