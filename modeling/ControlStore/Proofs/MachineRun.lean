import ControlStore.Proofs.ControlRom
import ControlStore.Proofs.DecisionRom

set_option autoImplicit false

/-!
Runs of the machine. The hardware knows codes only: in every cycle it reads the decision ROM at its
state code, the flags and the code of the instruction. The symbolic program knows names only. From
the same state and on the same inputs the two stay in the same state for ever.
-/
namespace ControlStore

/-- What the control unit senses in one cycle: the instruction and the flags. -/
structure Input where
  symbol : String
  zero : Bool
  negative : Bool
deriving DecidableEq

/-- The state that the symbolic program reaches from a state on some inputs. -/
def Program.follow? (program : Program) (start : String) (inputs : List Input) : Option String :=
  inputs.foldlM (fun name input => program.successor? name input.symbol input.zero input.negative)
    start

namespace Microcode

/-- The state that the compiled program reaches, by its own look-up of names. -/
def follow? (m : Microcode) (start : String) (inputs : List Input) : Option String :=
  inputs.foldlM (fun name input => m.next? name input.symbol input.zero input.negative) start

/-- One cycle of the hardware: the byte of the decision ROM at its address, if there is one. -/
def cycle? (m : Microcode) (code opcode : UInt8) (zero negative : Bool) : Option UInt8 :=
  m.decisionRom[(Address.mk code negative zero opcode).encode m.schema.geometry]?

/-- The state code that the hardware reaches on some inputs. It is lost if an instruction has no
code or an address is outside the ROM. -/
def drive? (m : Microcode) (start : UInt8) (inputs : List Input) : Option UInt8 :=
  inputs.foldlM (fun code input => (m.schema.codeOf input.symbol).toOption.bind fun opcode =>
    m.cycle? code opcode input.zero input.negative) start

/-- The hardware is at the code of a state: its next address for any symbol is inside the ROM and
the state has a successor there, the control ROM has the word of the state, and no opcode code
without a symbol leads away. -/
structure InStep (schema : Schema) (m : Microcode) (name : String) (code : UInt8) : Prop where
  coded : m.codeOf? name = some code
  word : ∃ word, m.word? name = some word ∧ m.controlRom[code.toNat]? = some word
  continues : ∀ symbol ∈ schema.opcodes.map (·.symbol), ∀ zero negative,
    ∃ opcode next, schema.codeOf symbol = .ok opcode ∧
      (Address.mk code negative zero opcode).encode schema.geometry < m.decisionRom.size ∧
      m.next? name symbol zero negative = some next
  parked : ∀ opcode zero negative, opcode.toNat < 2 ^ schema.geometry.opcodeBits →
    schema.symbolOf? opcode = none → m.cycle? code opcode zero negative = some code

end Microcode

namespace Compiled

variable {schema : Schema} {program : Program} {m : Microcode}

/-- The address of a state that the ROM can hold, joined from its fields. -/
theorem encode_eq (compiled : Compiled schema program m)
    (addressable : program.size ≤ schema.geometry.stateSpace) {name : String} {code : UInt8}
    (coded : m.codeOf? name = some code) (opcode : UInt8) (zero negative : Bool) :
    (Address.mk code negative zero opcode).encode schema.geometry =
      schema.geometry.joined code.toNat negative zero opcode.toNat :=
  Address.encode_eq_joined _ _ (Nat.lt_of_lt_of_le (compiled.code_lt_size coded) addressable)

/-- One step in step: on an instruction of the schema the ROM, the compiled program and the
symbolic program all move, and to the same state. -/
theorem step_in_step (compiled : Compiled schema program m)
    (addressable : program.size ≤ schema.geometry.stateSpace) {name : String} {code : UInt8}
    (coded : m.codeOf? name = some code) {opcode : Opcode} (declared : opcode ∈ schema.opcodes)
    (zero negative : Bool) :
    ∃ nextName nextCode, m.cycle? code opcode.code zero negative = some nextCode ∧
      m.next? name opcode.symbol zero negative = some nextName ∧
      program.successor? name opcode.symbol zero negative = some nextName ∧
      m.codeOf? nextName = some nextCode := by
  obtain ⟨state, located, rfl⟩ := compiled.exists_state coded
  have fits := Nat.lt_of_lt_of_le (compiled.code_lt_size coded) addressable
  obtain ⟨nextName, nextCode, held, successor, named⟩ :=
    compiled.decisionRom_mapped located declared fits zero negative
  obtain ⟨name, followed, symbolic⟩ := compiled.next?_successor coded declared zero negative
  -- The name was found on two ways; both read the successor of the same state.
  have same := symbolic
  rw [compiled.successor?_eq located, successor] at same
  cases same
  refine ⟨nextName, nextCode, ?_, followed, symbolic, named⟩
  rw [Microcode.cycle?, compiled.schema_eq, compiled.encode_eq addressable coded]
  exact held

/-- An opcode code without a symbol leaves the hardware in its state. -/
theorem cycle?_unmapped (compiled : Compiled schema program m)
    (addressable : program.size ≤ schema.geometry.stateSpace) {name : String} {code : UInt8}
    (coded : m.codeOf? name = some code) {opcode : UInt8}
    (fits : opcode.toNat < schema.geometry.opcodeSpace)
    (unmapped : schema.symbolOf? opcode = none) (zero negative : Bool) :
    m.cycle? code opcode zero negative = some code := by
  have noOpcode : ∀ other ∈ schema.opcodes, other.code.toNat ≠ opcode.toNat := by
    intro other member same
    exact schema.symbolOf?_eq_none_iff.mp unmapped other member (UInt8.toNat_inj.mp same)
  have stateFits := Nat.lt_of_lt_of_le (compiled.code_lt_size coded) addressable
  have parked := compiled.decisionRom_parked stateFits fits (Or.inr noOpcode) zero negative
  rw [Microcode.cycle?, compiled.schema_eq, compiled.encode_eq addressable coded, parked,
    UInt8.ofNat_toNat]

/-- The control ROM gives the word of the state that the hardware is in. -/
theorem controlRom_word (compiled : Compiled schema program m)
    (addressable : program.size ≤ schema.geometry.stateSpace) {name : String} {code : UInt8}
    (coded : m.codeOf? name = some code) :
    ∃ word, m.word? name = some word ∧ m.controlRom[code.toNat]? = some word := by
  obtain ⟨state, located, -⟩ := compiled.exists_state coded
  obtain ⟨word, held, -⟩ := compiled.word_at _ state located
  refine ⟨word, ?_, ?_⟩
  · rw [Microcode.word?, coded, Option.bind_some, held]
  · have inside := compiled.code_lt_size coded
    have addressed : code.toNat < m.schema.geometry.controlLength m.index.size := by
      rw [compiled.schema_eq, compiled.index_size, Geometry.controlLength]
      omega
    rw [m.getElem?_controlRom addressed, held]

theorem inStep_of_codeOf? (compiled : Compiled schema program m)
    (addressable : program.size ≤ schema.geometry.stateSpace) {name : String} {code : UInt8}
    (coded : m.codeOf? name = some code) : m.InStep schema name code := by
  refine ⟨coded, compiled.controlRom_word addressable coded, ?_, ?_⟩
  · intro symbol known zero negative
    obtain ⟨opcode, declared, rfl⟩ := List.mem_map.mp known
    obtain ⟨next, _, cycled, followed, -, -⟩ :=
      compiled.step_in_step addressable coded declared zero negative
    refine ⟨opcode.code, next, schema.codeOf_eq_ok_iff.mpr declared, ?_, followed⟩
    rw [Microcode.cycle?, compiled.schema_eq] at cycled
    exact (Array.getElem?_eq_some_iff.mp cycled).1
  · intro opcode zero negative fits unmapped
    exact compiled.cycle?_unmapped addressable coded fits unmapped zero negative

/-- A run in step: every state on the way has a code, and the hardware holds it. -/
theorem run_in_step (compiled : Compiled schema program m)
    (addressable : program.size ≤ schema.geometry.stateSpace) (inputs : List Input)
    (known : ∀ input ∈ inputs, input.symbol ∈ schema.opcodes.map (·.symbol)) {name : String}
    {code : UInt8} (coded : m.codeOf? name = some code) :
    ∃ lastName lastCode, m.drive? code inputs = some lastCode ∧
      m.follow? name inputs = some lastName ∧ program.follow? name inputs = some lastName ∧
      m.codeOf? lastName = some lastCode := by
  induction inputs generalizing name code with
  | nil => exact ⟨name, code, rfl, rfl, rfl, coded⟩
  | cons input rest ih =>
      obtain ⟨opcode, declared, symbol⟩ := List.mem_map.mp (known input List.mem_cons_self)
      obtain ⟨nextName, nextCode, cycled, compiledNext, symbolicNext, nextCoded⟩ :=
        compiled.step_in_step addressable coded declared input.zero input.negative
      have opcodeOf : m.schema.codeOf input.symbol = .ok opcode.code := by
        rw [compiled.schema_eq, schema.codeOf_eq_ok_iff, ← symbol]
        exact declared
      obtain ⟨lastName, lastCode, driven, followed, symbolic, lastCoded⟩ :=
        ih (fun other member => known other (List.mem_cons_of_mem _ member)) nextCoded
      rw [symbol] at compiledNext symbolicNext
      refine ⟨lastName, lastCode, ?_, ?_, ?_, lastCoded⟩
      · rw [Microcode.drive?, List.foldlM_cons, opcodeOf]
        change (m.cycle? code opcode.code input.zero input.negative).bind _ = _
        rw [cycled]
        exact driven
      · rw [Microcode.follow?, List.foldlM_cons, compiledNext]
        exact followed
      · rw [Program.follow?, List.foldlM_cons, symbolicNext]
        exact symbolic

end Compiled

/-- From every state of a program that fits the state field, on any number of inputs, the hardware
and the program stay in step. -/
theorem drive_follows_program {schema : Schema} {program : Program} {m : Microcode}
    (success : compile schema program = .ok m)
    (addressable : program.size ≤ 2 ^ schema.geometry.stateBits) {start : String}
    (declared : start ∈ program.names) (inputs : List Input)
    (known : ∀ input ∈ inputs, input.symbol ∈ schema.opcodes.map (·.symbol)) :
    ∃ first code name, m.codeOf? start = some first ∧
      m.drive? first inputs = some code ∧
      m.follow? start inputs = some name ∧
      program.follow? start inputs = some name ∧
      m.InStep schema name code := by
  have compiled := compiled_of_compile success
  have indexed : start ∈ m.index.names := by
    rw [compiled.names_eq]
    exact declared
  obtain ⟨first, coded⟩ := m.index.exists_code?_eq_some indexed
  obtain ⟨name, code, driven, followed, symbolic, lastCoded⟩ :=
    compiled.run_in_step addressable inputs known coded
  exact ⟨first, code, name, coded, driven, followed, symbolic,
    compiled.inStep_of_codeOf? addressable lastCoded⟩

/-- The pulse generator stays, pulses, idles again and stops. -/
theorem drive_follows_program_pulse :
    ∃ m, compile Pulse.schema Pulse.program = .ok m ∧
      ∃ first code name, m.codeOf? "IDLE" = some first ∧
        m.drive? first [⟨"STAY", true, false⟩, ⟨"GO", true, true⟩, ⟨"GO", false, false⟩,
          ⟨"STAY", false, true⟩] = some code ∧
        name = "STOP" ∧ m.InStep Pulse.schema name code := by
  obtain ⟨m, success⟩ := Pulse.compiles
  have idle : "IDLE" ∈ Pulse.program.names := by decide
  obtain ⟨first, code, name, coded, driven, -, followed, inStep⟩ :=
    drive_follows_program success (by decide) idle
      [⟨"STAY", true, false⟩, ⟨"GO", true, true⟩, ⟨"GO", false, false⟩, ⟨"STAY", false, true⟩]
      (by decide)
  have stopped : Pulse.program.follow? "IDLE" [⟨"STAY", true, false⟩, ⟨"GO", true, true⟩,
      ⟨"GO", false, false⟩, ⟨"STAY", false, true⟩] = some "STOP" := by decide
  have last : name = "STOP" := Option.some.inj (followed.symm.trans stopped)
  exact ⟨m, success, first, code, name, coded, driven, last, inStep⟩

end ControlStore
