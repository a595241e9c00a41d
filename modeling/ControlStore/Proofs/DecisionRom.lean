import ControlStore.Microcode.Image
import ControlStore.Proofs.AddressFields
import ControlStore.Proofs.Compiled
import ControlStore.Proofs.ProgramFaults

set_option autoImplicit false

/-!
The decision ROM holds the symbolic program: at the address of a state and an opcode stands the
position of the successor, and everywhere else the machine stays where it is.
-/
namespace ControlStore

namespace Microcode

theorem size_decisionRom (m : Microcode) :
    m.decisionRom.size = m.schema.geometry.romLength := by
  rw [decisionRom, Array.size_map, Array.size_range]

/-- The byte at an address is looked up by its fields, or else is the state field itself. -/
theorem decisionRom_joined (m : Microcode) {state opcode : Nat} (negative zero : Bool)
    (stateFits : state < m.schema.geometry.stateSpace)
    (opcodeFits : opcode < m.schema.geometry.opcodeSpace) :
    m.decisionRom[m.schema.geometry.joined state negative zero opcode]? =
      some ((m.lookup? ⟨UInt8.ofNat state, negative, zero, UInt8.ofNat opcode⟩).getD
        (UInt8.ofNat state)) := by
  have inside := m.schema.geometry.joined_lt negative zero stateFits opcodeFits
  rw [decisionRom, Array.getElem?_map, Array.getElem?_range, if_pos inside, Option.map_some,
    decisionByte, Address.decode_joined _ negative zero stateFits opcodeFits]

/-- The decision ROM is that of the schema and the tables. -/
theorem decisionRom_congr {first second : Microcode} (schema : second.schema = first.schema)
    (tables : second.tables = first.tables) : second.decisionRom = first.decisionRom := by
  have byte : second.decisionByte = first.decisionByte := by
    funext address
    simp only [decisionByte, lookup?, schema, tables]
  rw [decisionRom, decisionRom, schema, byte]

end Microcode

namespace Compiled

variable {schema : Schema} {program : Program} {m : Microcode}

/-- A code is the position of the state it stands for. -/
theorem idxOf?_of_codeOf? (compiled : Compiled schema program m) {name : String} {code : UInt8}
    (coded : m.codeOf? name = some code) : program.names.idxOf? name = some code.toNat := by
  rw [idxOf?_eq_some_iff compiled.names_nodup]
  exact compiled.codeOf?_eq_some_iff.mp coded

theorem decisionRom_mapped (compiled : Compiled schema program m) {state : State}
    {opcode : Opcode} {position : Nat} (located : program.states[position]? = some state)
    (declared : opcode ∈ schema.opcodes) (fits : position < schema.geometry.stateSpace)
    (zero negative : Bool) :
    ∃ name code,
      m.decisionRom[schema.geometry.joined position negative zero opcode.code.toNat]? =
        some code ∧
      state.successor? opcode.symbol zero negative = some name ∧ m.codeOf? name = some code := by
  have held : (UInt8.ofNat position).toNat = position :=
    UInt8.toNat_ofNat_of_lt' (Nat.lt_of_lt_of_le fits (schema.geometry.stateSpace_le schema.valid))
  obtain ⟨name, code, found, successor, coded⟩ := compiled.lookup?_successor
    ⟨UInt8.ofNat position, negative, zero, opcode.code⟩ (by rw [held]; exact located) declared rfl
  refine ⟨name, code, ?_, successor, coded⟩
  have byte := m.decisionRom_joined negative zero (by rw [compiled.schema_eq]; exact fits)
    (by rw [compiled.schema_eq]; exact schema.codes_fit opcode declared)
  rw [compiled.schema_eq, UInt8.ofNat_toNat, found, Option.getD_some] at byte
  exact byte

/-- Where no state or no opcode stands behind an address, the ROM holds the state field. -/
theorem decisionRom_parked (compiled : Compiled schema program m) {position code : Nat}
    (fits : position < schema.geometry.stateSpace) (codeFits : code < schema.geometry.opcodeSpace)
    (parked : program.size ≤ position ∨ ∀ opcode ∈ schema.opcodes, opcode.code.toNat ≠ code)
    (zero negative : Bool) :
    m.decisionRom[schema.geometry.joined position negative zero code]? =
      some (UInt8.ofNat position) := by
  have held : (UInt8.ofNat position).toNat = position :=
    UInt8.toNat_ofNat_of_lt' (Nat.lt_of_lt_of_le fits (schema.geometry.stateSpace_le schema.valid))
  have heldCode : (UInt8.ofNat code).toNat = code :=
    UInt8.toNat_ofNat_of_lt'
      (Nat.lt_of_lt_of_le codeFits (schema.geometry.opcodeSpace_le schema.valid))
  have absent : m.lookup? ⟨UInt8.ofNat position, negative, zero, UInt8.ofNat code⟩ = none := by
    rcases parked with past | unmapped
    · apply compiled.lookup?_past
      rw [held]
      exact past
    · apply compiled.lookup?_unmapped
      intro opcode declared same
      apply unmapped opcode declared
      rw [same, heldCode]
  have byte := m.decisionRom_joined negative zero (by rw [compiled.schema_eq]; exact fits)
    (by rw [compiled.schema_eq]; exact codeFits)
  rw [compiled.schema_eq, absent, Option.getD_none] at byte
  exact byte

end Compiled

/-- The decision ROM has a byte for every joined address and nothing else. For a state of the
program and the code of an opcode it is the position of the state's successor; past the last state
and for a code without an opcode it is the state field of the address. -/
theorem decisionRom_holds_successors {schema : Schema} {program : Program} {m : Microcode}
    (success : compile schema program = .ok m) :
    m.decisionRom.size = 2 ^ (schema.geometry.opcodeBits + 2 + schema.geometry.stateBits) ∧
    (∀ address < m.decisionRom.size, ∃ s negative zero o,
      s < 2 ^ schema.geometry.stateBits ∧ o < 2 ^ schema.geometry.opcodeBits ∧
        address = schema.geometry.joined s negative zero o) ∧
    ∀ (s o : Nat) (negative zero : Bool),
      s < 2 ^ schema.geometry.stateBits → o < 2 ^ schema.geometry.opcodeBits →
      ∃ byte, m.decisionRom[schema.geometry.joined s negative zero o]? = some byte ∧
        (∀ state opcode, program.states[s]? = some state → opcode ∈ schema.opcodes →
          opcode.code.toNat = o →
          ∃ name, state.successor? opcode.symbol zero negative = some name ∧
            program.names.idxOf? name = some byte.toNat) ∧
        ((program.size ≤ s ∨ ∀ opcode ∈ schema.opcodes, opcode.code.toNat ≠ o) →
          byte.toNat = s) := by
  have compiled := compiled_of_compile success
  have size := m.size_decisionRom
  rw [compiled.schema_eq] at size
  refine ⟨size, ?_, ?_⟩
  · intro address inside
    exact schema.geometry.exists_joined (size ▸ inside)
  · intro s o negative zero stateFits opcodeFits
    have inside : schema.geometry.joined s negative zero o < m.decisionRom.size := by
      rw [size]
      exact schema.geometry.joined_lt negative zero stateFits opcodeFits
    refine ⟨_, Array.getElem?_eq_getElem inside, ?_, ?_⟩
    · intro state opcode located declared coded
      subst coded
      obtain ⟨name, code, held, successor, named⟩ :=
        compiled.decisionRom_mapped located declared stateFits zero negative
      rw [Array.getElem?_eq_getElem inside, Option.some.injEq] at held
      exact ⟨name, successor, held ▸ compiled.idxOf?_of_codeOf? named⟩
    · intro parked
      have small : s < UInt8.size :=
        Nat.lt_of_lt_of_le stateFits (schema.geometry.stateSpace_le schema.valid)
      have held := compiled.decisionRom_parked stateFits opcodeFits parked zero negative
      rw [Array.getElem?_eq_getElem inside, Option.some.injEq] at held
      rw [held, UInt8.toNat_ofNat_of_lt' small]

/-- The pulse generator's ROM: `GO` with the zero flag pulses, `STAY` with the negative flag stops,
and neither the fourth state code nor an opcode without a symbol moves the machine. -/
theorem decisionRom_holds_successors_pulse :
    ∃ m, compile Pulse.schema Pulse.program = .ok m ∧ m.decisionRom.size = 128 ∧
      m.decisionRom[Pulse.schema.geometry.joined 0 false true 5]? = some 1 ∧
      m.decisionRom[Pulse.schema.geometry.joined 0 true false 2]? = some 2 ∧
      m.decisionRom[Pulse.schema.geometry.joined 3 true true 5]? = some 3 ∧
      m.decisionRom[Pulse.schema.geometry.joined 0 false true 3]? = some 0 := by
  obtain ⟨m, success⟩ := Pulse.compiles
  obtain ⟨size, -, cells⟩ := decisionRom_holds_successors success
  refine ⟨m, success, size, ?_, ?_, ?_, ?_⟩
  · obtain ⟨byte, held, mapped, -⟩ := cells 0 5 false true (by decide) (by decide)
    obtain ⟨name, successor, position⟩ := mapped Pulse.idle ⟨"GO", 5⟩ rfl (by decide) rfl
    cases successor
    have one : byte = 1 := UInt8.toNat_inj.mp (Option.some.inj position).symm
    rw [held, one]
  · obtain ⟨byte, held, mapped, -⟩ := cells 0 2 true false (by decide) (by decide)
    obtain ⟨name, successor, position⟩ := mapped Pulse.idle ⟨"STAY", 2⟩ rfl (by decide) rfl
    cases successor
    have two : byte = 2 := UInt8.toNat_inj.mp (Option.some.inj position).symm
    rw [held, two]
  · obtain ⟨byte, held, -, parked⟩ := cells 3 5 true true (by decide) (by decide)
    have three : byte = 3 := UInt8.toNat_inj.mp (parked (Or.inl (by decide)))
    rw [held, three]
  · obtain ⟨byte, held, -, parked⟩ := cells 0 3 false true (by decide) (by decide)
    have zero : byte = 0 := UInt8.toNat_inj.mp (parked (Or.inr (by decide)))
    rw [held, zero]

end ControlStore
