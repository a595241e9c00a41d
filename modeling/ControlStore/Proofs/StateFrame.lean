import ControlStore.Proofs.ControlRom
import ControlStore.Proofs.DecisionRom

set_option autoImplicit false

/-!
Edits of one state. The transition of a state decides nothing but the table of that state, and its
control record nothing but its word; all codes, all other tables and words, and the ROM wherever
another state stands in the address, stay as they were.
-/
namespace ControlStore

/-! ### Programs that differ in one state -/

/-- Programs with the same states but at one position, where the name and a part of the state are
kept. -/
structure Program.EditedAt {α : Type} (position : Nat) (part : State → α) (first second : Program) :
    Prop where
  kept : second.states.map (fun state => (state.name, part state)) =
    first.states.map fun state => (state.name, part state)
  elsewhere : ∀ i ≠ position, second.states[i]? = first.states[i]?

variable {first second : Program} {position : Nat}

theorem Program.names_eq_of_kept {α : Type} {part : State → α}
    (kept : second.states.map (fun state => (state.name, part state)) =
      first.states.map fun state => (state.name, part state)) : second.names = first.names := by
  have names := congrArg (List.map Prod.fst) kept
  rwa [List.map_map, List.map_map] at names

theorem Program.EditedAt.names_eq {α : Type} {part : State → α}
    (edited : first.EditedAt position part second) : second.names = first.names :=
  names_eq_of_kept edited.kept

/-- A change that keeps the name and the part, made at the position. -/
theorem Program.editedAt_modify {α : Type} (program : Program) (position : Nat) {part : State → α}
    {change : State → State}
    (keeps : ∀ state, (change state).name = state.name ∧ part (change state) = part state) :
    program.EditedAt position part (program.modify position change) := by
  refine ⟨List.ext_getElem? fun i => ?_, fun i apart => ?_⟩
  · rw [Program.modify, List.getElem?_map, List.getElem?_map, List.getElem?_modify]
    cases program.states[i]? with
    | none => rfl
    | some state => by_cases here : position = i <;> simp [here, keeps state]
  · exact List.getElem?_modify_ne change program.states apart.symm

/-! ### What tables, words and ROM bytes depend on -/

namespace Compiled

variable {schema : Schema} {m n : Microcode}

/-- States of the same names have the same codes. -/
theorem index_eq_of_names (compiled : Compiled schema first m) (other : Compiled schema second n)
    (names : second.names = first.names) : n.index = m.index :=
  StateIndex.ext (by rw [other.names_eq, names, compiled.names_eq])

/-- The words are told from names and control records. -/
theorem words_eq_of_kept (compiled : Compiled schema first m) (other : Compiled schema second n)
    (kept : second.states.map (fun state => (state.name, state.control)) =
      first.states.map fun state => (state.name, state.control)) : n.words = m.words := by
  apply Array.ext_getElem?
  intro i
  have same := congrArg (fun parts => parts[i]?.bind fun part =>
    (part.2.word schema.defaults part.1).toOption) kept
  simp only [List.getElem?_map, Option.bind_map] at same
  rw [compiled.getElem?_words, other.getElem?_words]
  exact same

/-- The tables are told from names and transitions. -/
theorem tables_eq_of_kept (compiled : Compiled schema first m) (other : Compiled schema second n)
    (index : n.index = m.index)
    (kept : second.states.map (fun state => (state.name, state.next)) =
      first.states.map fun state => (state.name, state.next)) : n.tables = m.tables := by
  apply Array.ext_getElem?
  intro i
  -- A table is the same for every control record, so it is the one for the empty record.
  have same := congrArg (fun parts => parts[i]?.bind fun part =>
    (State.table ⟨part.1, .empty, part.2⟩ schema m.index).toOption) kept
  simp only [List.getElem?_map, Option.bind_map] at same
  rw [compiled.getElem?_tables, other.getElem?_tables, index]
  exact same

/-- A byte of the decision ROM depends on the table of the state in its address. -/
theorem decisionRom_eq_of_table (compiled : Compiled schema first m)
    (other : Compiled schema second n) {address : Nat}
    (table : n.tables[(Address.decode schema.geometry address).state.toNat]? =
      m.tables[(Address.decode schema.geometry address).state.toNat]?) :
    n.decisionRom[address]? = m.decisionRom[address]? := by
  have byte : n.decisionByte address = m.decisionByte address := by
    simp only [Microcode.decisionByte, Microcode.lookup?, compiled.schema_eq, other.schema_eq,
      table]
  simp only [Microcode.decisionRom, Array.getElem?_map, Array.getElem?_range, compiled.schema_eq,
    other.schema_eq]
  split <;> simp [byte]

end Compiled

/-- Edits of one state stay local. If two programs that compile differ in the transition of one state
only, then all codes, all words and all tables but that of the state are the same, and so are the
decision ROMs at every address that does not hold the state. If they differ in the control record of
one state only, then all tables and the decision ROMs are the same, and so are all words but that of
the state. -/
theorem compile_edited_at {schema : Schema} {m n : Microcode}
    (success : compile schema first = .ok m) (also : compile schema second = .ok n)
    (position : Nat) :
    (first.EditedAt position State.control second →
      (∀ name, n.codeOf? name = m.codeOf? name) ∧ n.words = m.words ∧
      (∀ i ≠ position, n.tables[i]? = m.tables[i]?) ∧ n.decisionRom.size = m.decisionRom.size ∧
      ∀ address, (Address.decode schema.geometry address).state.toNat ≠ position →
        n.decisionRom[address]? = m.decisionRom[address]?) ∧
    (first.EditedAt position State.next second →
      n.decisionRom = m.decisionRom ∧ n.tables = m.tables ∧ n.words.size = m.words.size ∧
      ∀ i ≠ position, n.words[i]? = m.words[i]? ∧ n.controlRom[i]? = m.controlRom[i]?) := by
  have compiled := compiled_of_compile success
  have other := compiled_of_compile also
  have schemas : n.schema = m.schema := other.schema_eq.trans compiled.schema_eq.symm
  constructor
  · intro edited
    have index := compiled.index_eq_of_names other edited.names_eq
    have tables : ∀ i ≠ position, n.tables[i]? = m.tables[i]? := by
      intro i apart
      rw [compiled.getElem?_tables, other.getElem?_tables, index, edited.elsewhere i apart]
    refine ⟨fun name => by rw [Microcode.codeOf?, Microcode.codeOf?, index],
      compiled.words_eq_of_kept other edited.kept, tables, ?_, ?_⟩
    · rw [n.size_decisionRom, m.size_decisionRom, schemas]
    · exact fun address apart => compiled.decisionRom_eq_of_table other (tables _ apart)
  · intro edited
    have index := compiled.index_eq_of_names other edited.names_eq
    have tables := compiled.tables_eq_of_kept other index edited.kept
    have sizes : n.words.size = m.words.size := by
      rw [other.words_size, compiled.words_size, ← compiled.index_size, ← other.index_size, index]
    have words : ∀ i ≠ position, n.words[i]? = m.words[i]? := by
      intro i apart
      rw [compiled.getElem?_words, other.getElem?_words, edited.elsewhere i apart]
    refine ⟨Microcode.decisionRom_congr schemas tables, tables, sizes, fun i apart => ?_⟩
    refine ⟨words i apart, ?_⟩
    simp only [Microcode.controlRom, Array.take_eq_extract, Array.getElem?_extract, Nat.zero_add,
      schemas, index, sizes, words i apart]

/-- The pulse generator with a pulse that never ends, and with one that writes nothing. -/
theorem compile_edited_at_pulse : ∃ m n k, compile Pulse.schema Pulse.program = .ok m ∧
    compile Pulse.schema (Pulse.program.modify 1 (·.goto "PULSE")) = .ok n ∧
    compile Pulse.schema (Pulse.program.modify 1 ({ · with control := .empty })) = .ok k ∧
    n.words = m.words ∧ n.decisionRom[0]? = m.decisionRom[0]? ∧
    k.decisionRom = m.decisionRom ∧ k.words[2]? = m.words[2]? := by
  obtain ⟨m, success⟩ := Pulse.compiles
  obtain ⟨n, endless⟩ : ∃ n, compile Pulse.schema (Pulse.program.modify 1 (·.goto "PULSE")) = .ok n :=
    (reports_compile _ _).exists_ok_iff.mpr (by decide)
  obtain ⟨k, silent⟩ : ∃ k,
      compile Pulse.schema (Pulse.program.modify 1 ({ · with control := .empty })) = .ok k :=
    (reports_compile _ _).exists_ok_iff.mpr (by decide)
  obtain ⟨-, words, -, -, bytes⟩ := (compile_edited_at success endless 1).1
    (Pulse.program.editedAt_modify 1 fun _ => ⟨rfl, rfl⟩)
  obtain ⟨rom, -, -, others⟩ := (compile_edited_at success silent 1).2
    (Pulse.program.editedAt_modify 1 fun _ => ⟨rfl, rfl⟩)
  exact ⟨m, n, k, success, endless, silent, words, bytes 0 (by decide), rom,
    (others 2 (by decide)).1⟩

end ControlStore
