import ControlStore.Proofs.Compiled
import ControlStore.Proofs.ProgramFaults

set_option autoImplicit false

/-!
A compiled program can be asked for a successor in two ways: by the names of a state and of an
opcode, and by the codes in an address. The first goes through the names, the second through
positions and codes, and both end at the same cell of the same table.
-/
namespace ControlStore

namespace Compiled

variable {schema : Schema} {program : Program} {m : Microcode}

theorem exists_codeOf?_iff (compiled : Compiled schema program m) {name : String} :
    (∃ code, m.codeOf? name = some code) ↔ name ∈ program.names := by
  rw [← compiled.names_eq]
  constructor
  · intro coded
    obtain ⟨code, coded⟩ := coded
    exact List.mem_of_getElem? (m.index.code?_eq_some_iff.mp coded)
  · exact m.index.exists_code?_eq_some

/-- By name there is a successor of every state for every opcode, and no other. -/
theorem exists_next?_iff (compiled : Compiled schema program m) {state symbol : String}
    {zero negative : Bool} :
    (∃ next, m.next? state symbol zero negative = some next) ↔
      state ∈ program.names ∧ symbol ∈ schema.opcodes.map (·.symbol) := by
  constructor
  · intro leads
    obtain ⟨next, leads⟩ := leads
    rw [compiled.next?_eq_successor?] at leads
    split at leads
    · rename_i known
      refine ⟨compiled.exists_codeOf?_iff.mp ?_, known⟩
      cases coded : m.codeOf? state with
      | none =>
          rw [Program.successor?, compiled.state?_eq_none coded] at leads
          cases leads
      | some code => exact ⟨code, rfl⟩
    · cases leads
  · intro known
    obtain ⟨declared, listed⟩ := known
    obtain ⟨code, coded⟩ := compiled.exists_codeOf?_iff.mpr declared
    obtain ⟨opcode, member, rfl⟩ := List.mem_map.mp listed
    obtain ⟨next, leads, -⟩ := compiled.next?_successor coded member zero negative
    exact ⟨next, leads⟩

/-- At the codes of a state and an opcode stands the code of the successor by name. -/
theorem lookup?_of_next? (compiled : Compiled schema program m) {state symbol next : String}
    {zero negative : Bool} (leads : m.next? state symbol zero negative = some next) :
    ∃ code opcode follower, m.codeOf? state = some code ∧ schema.codeOf symbol = .ok opcode ∧
      m.codeOf? next = some follower ∧
      m.lookup? ⟨code, negative, zero, opcode⟩ = some follower := by
  obtain ⟨declared, listed⟩ := compiled.exists_next?_iff.mp ⟨next, leads⟩
  obtain ⟨code, coded⟩ := compiled.exists_codeOf?_iff.mpr declared
  obtain ⟨opcode, member, rfl⟩ := List.mem_map.mp listed
  obtain ⟨found, located, rfl⟩ := compiled.exists_state coded
  obtain ⟨name, follower, held, successor, named⟩ :=
    compiled.lookup?_successor ⟨code, negative, zero, opcode.code⟩ located member rfl
  rw [compiled.next?_eq_successor?, if_pos listed, compiled.successor?_eq located, successor,
    Option.some.injEq] at leads
  subst leads
  exact ⟨code, opcode.code, follower, coded, schema.codeOf_eq_ok_iff.mpr member, named, held⟩

/-- An address names no state or no opcode and holds nothing, or it names both and holds the code of
a state. -/
theorem lookup?_cases (compiled : Compiled schema program m) (address : Address) :
    (program.size ≤ address.state.toNat ∨ schema.symbolOf? address.opcode = none) ∧
        m.lookup? address = none ∨
      ¬ (program.size ≤ address.state.toNat ∨ schema.symbolOf? address.opcode = none) ∧
        ∃ state ∈ program.names, ∃ code,
          m.codeOf? state = some code ∧ m.lookup? address = some code := by
  by_cases parked : program.size ≤ address.state.toNat ∨ schema.symbolOf? address.opcode = none
  · refine Or.inl ⟨parked, ?_⟩
    rcases parked with past | unmapped
    · exact compiled.lookup?_past past
    · exact compiled.lookup?_unmapped (schema.symbolOf?_eq_none_iff.mp unmapped)
  · refine Or.inr ⟨parked, ?_⟩
    obtain ⟨inside, mapped⟩ := not_or.mp parked
    obtain ⟨symbol, named⟩ := Option.ne_none_iff_exists'.mp mapped
    have member := schema.symbolOf?_eq_some_iff.mp named
    have located := List.getElem?_eq_getElem (Nat.lt_of_not_le inside)
    obtain ⟨name, code, held, -, coded⟩ := compiled.lookup?_successor address located member rfl
    exact ⟨name, compiled.exists_codeOf?_iff.mp ⟨code, coded⟩, code, coded, held⟩

theorem lookup?_eq_none_iff (compiled : Compiled schema program m) (address : Address) :
    m.lookup? address = none ↔
      program.size ≤ address.state.toNat ∨ schema.symbolOf? address.opcode = none := by
  rcases compiled.lookup?_cases address with ⟨parked, absent⟩ | ⟨known, state, -, code, -, held⟩
  · exact iff_of_true absent parked
  · exact iff_of_false (held ▸ Option.some_ne_none code) known

theorem exists_state_of_lookup? (compiled : Compiled schema program m) {address : Address}
    {code : UInt8} (held : m.lookup? address = some code) :
    ∃ state ∈ program.names, m.codeOf? state = some code := by
  rcases compiled.lookup?_cases address with ⟨-, absent⟩ | ⟨-, state, declared, found, coded, here⟩
  · cases absent.symm.trans held
  · cases here.symm.trans held
    exact ⟨state, declared, coded⟩

end Compiled

/-- The two queries agree. By name a compiled program has a successor exactly for the states of the
program and the opcodes of the schema, and the address of their codes then holds the code of that
successor. An address holds nothing exactly if it names no state or no opcode, and else it holds the
code of a state of the program. -/
theorem next?_agrees_with_lookup? {schema : Schema} {program : Program} {m : Microcode}
    (success : compile schema program = .ok m) :
    (∀ (state symbol : String) (zero negative : Bool),
      ((∃ next, m.next? state symbol zero negative = some next) ↔
        state ∈ program.names ∧ symbol ∈ schema.opcodes.map (·.symbol)) ∧
      ∀ next, m.next? state symbol zero negative = some next →
        ∃ code opcode follower, m.codeOf? state = some code ∧ schema.codeOf symbol = .ok opcode ∧
          m.codeOf? next = some follower ∧
          m.lookup? ⟨code, negative, zero, opcode⟩ = some follower) ∧
    ∀ address : Address,
      (m.lookup? address = none ↔
        program.size ≤ address.state.toNat ∨ schema.symbolOf? address.opcode = none) ∧
      ∀ code, m.lookup? address = some code →
        ∃ state ∈ program.names, m.codeOf? state = some code := by
  have compiled := compiled_of_compile success
  constructor
  · intro state symbol zero negative
    exact ⟨compiled.exists_next?_iff, fun next leads => compiled.lookup?_of_next? leads⟩
  · intro address
    exact ⟨compiled.lookup?_eq_none_iff address,
      fun code held => compiled.exists_state_of_lookup? held⟩

/-- The pulse generator: `GO` with the zero flag leads from idling to the pulse, the fourth state
code and the opcode code 3 name nothing. -/
theorem next?_agrees_with_lookup?_pulse : ∃ m, compile Pulse.schema Pulse.program = .ok m ∧
    m.next? "IDLE" "GO" true false = some "PULSE" ∧ m.lookup? ⟨0, false, true, 5⟩ = some 1 ∧
    m.next? "IDLE" "STOP" true false = none ∧ m.lookup? ⟨3, false, true, 5⟩ = none ∧
    m.lookup? ⟨0, false, true, 3⟩ = none := by
  obtain ⟨m, success⟩ := Pulse.compiles
  obtain ⟨byName, byAddress⟩ := next?_agrees_with_lookup? success
  have compiled := compiled_of_compile success
  have leads : m.next? "IDLE" "GO" true false = some "PULSE" := by
    rw [compiled.next?_eq_successor?]
    decide
  have idle : m.codeOf? "IDLE" = some 0 := compiled.codeOf?_eq_some_iff.mpr rfl
  have pulse : m.codeOf? "PULSE" = some 1 := compiled.codeOf?_eq_some_iff.mpr rfl
  have go : Pulse.schema.codeOf "GO" = .ok 5 := by decide
  obtain ⟨code, opcode, follower, coded, stands, followed, held⟩ :=
    (byName "IDLE" "GO" true false).2 "PULSE" leads
  cases idle.symm.trans coded
  cases go.symm.trans stands
  cases pulse.symm.trans followed
  have unlisted : m.next? "IDLE" "STOP" true false = none := by
    rw [Option.eq_none_iff_forall_ne_some]
    intro next also
    exact absurd ((byName "IDLE" "STOP" true false).1.mp ⟨next, also⟩).2 (by decide)
  exact ⟨m, success, leads, held, unlisted, (byAddress ⟨3, false, true, 5⟩).1.mpr (by decide),
    (byAddress ⟨0, false, true, 3⟩).1.mpr (by decide)⟩

end ControlStore
