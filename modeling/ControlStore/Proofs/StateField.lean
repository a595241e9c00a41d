import ControlStore.Proofs.MachineRun

set_option autoImplicit false

/-!
The state field of an address. A byte of the decision ROM names any state of the program, and the
next address holds only as many bits of it as the state field has. Programs may have more states
than the field can tell apart; the machine is safe exactly if none of the states that the field can
hold leads to one that it cannot.
-/
namespace ControlStore

/-- What stands on the wires in one cycle: an opcode's code, with or without a symbol, and the
flags. -/
structure Wires where
  opcode : UInt8
  zero : Bool
  negative : Bool
deriving DecidableEq

/-- The state code that the hardware reaches on some wires. -/
def Microcode.driveWires? (m : Microcode) (start : UInt8) (inputs : List Wires) : Option UInt8 :=
  inputs.foldlM (fun code wires => m.cycle? code wires.opcode wires.zero wires.negative) start

/-- Every byte of the decision ROM fits the state field. -/
def Microcode.FitsStateField (m : Microcode) : Prop :=
  ∀ byte ∈ m.decisionRom, byte.toNat < 2 ^ m.schema.geometry.stateBits

/-- No state that the state field can hold leads to one that it cannot. -/
def Program.StaysAddressable (schema : Schema) (program : Program) : Prop :=
  ∀ (i : Nat) (state : State), i < 2 ^ schema.geometry.stateBits →
    program.states[i]? = some state → ∀ opcode ∈ schema.opcodes, ∀ zero negative name position,
      state.successor? opcode.symbol zero negative = some name →
      program.names.idxOf? name = some position → position < 2 ^ schema.geometry.stateBits

namespace Compiled

variable {schema : Schema} {program : Program} {m : Microcode}

/-- A byte of the ROM is the code of a successor or the state field of its own address. -/
theorem decisionRom_cell (compiled : Compiled schema program m) {s o : Nat}
    (stateFits : s < schema.geometry.stateSpace) (opcodeFits : o < schema.geometry.opcodeSpace)
    (zero negative : Bool) :
    ∃ byte, m.decisionRom[schema.geometry.joined s negative zero o]? = some byte ∧
      ((∃ state, ∃ opcode ∈ schema.opcodes, ∃ name, program.states[s]? = some state ∧
          state.successor? opcode.symbol zero negative = some name ∧
          m.codeOf? name = some byte) ∨
        byte.toNat = s) := by
  have byteSized : s < UInt8.size :=
    Nat.lt_of_lt_of_le stateFits (schema.geometry.stateSpace_le schema.valid)
  have ownCode := UInt8.toNat_ofNat_of_lt' byteSized
  by_cases mapped : ∃ opcode ∈ schema.opcodes, opcode.code.toNat = o
  · obtain ⟨opcode, declared, coded⟩ := mapped
    subst coded
    cases located : program.states[s]? with
    | none =>
        have past := List.getElem?_eq_none_iff.mp located
        exact ⟨_, compiled.decisionRom_parked stateFits opcodeFits (Or.inl past) zero negative,
          Or.inr ownCode⟩
    | some state =>
        obtain ⟨name, code, held, successor, named⟩ :=
          compiled.decisionRom_mapped located declared stateFits zero negative
        exact ⟨code, held, Or.inl ⟨state, opcode, declared, name, rfl, successor, named⟩⟩
  · have unmapped : ∀ opcode ∈ schema.opcodes, opcode.code.toNat ≠ o := by
      intro opcode declared same
      exact mapped ⟨opcode, declared, same⟩
    exact ⟨_, compiled.decisionRom_parked stateFits opcodeFits (Or.inr unmapped) zero negative,
      Or.inr ownCode⟩

theorem size_controlRom (compiled : Compiled schema program m) :
    m.controlRom.size = min program.size (2 ^ schema.geometry.stateBits) := by
  rw [m.size_controlRom, compiled.schema_eq, compiled.words_size, compiled.index_size,
    Geometry.controlLength, Geometry.stateSpace]
  omega

theorem fitsStateField_iff (compiled : Compiled schema program m) :
    m.FitsStateField ↔ program.StaysAddressable schema := by
  constructor
  · intro fits i state inside located opcode declared zero negative name position successor placed
    obtain ⟨other, code, held, sameSuccessor, coded⟩ :=
      compiled.decisionRom_mapped located declared inside zero negative
    rw [successor, Option.some.injEq] at sameSuccessor
    subst sameSuccessor
    have samePlace := compiled.idxOf?_of_codeOf? coded
    rw [placed, Option.some.injEq] at samePlace
    have small := fits code (Array.mem_of_getElem? held)
    rw [compiled.schema_eq] at small
    omega
  · intro stays byte member
    obtain ⟨address, inside, atAddress⟩ := Array.mem_iff_getElem.mp member
    have inRom := inside
    rw [m.size_decisionRom, compiled.schema_eq] at inRom
    obtain ⟨s, negative, zero, o, stateFits, opcodeFits, joined⟩ :=
      schema.geometry.exists_joined inRom
    obtain ⟨cell, held, origin⟩ := compiled.decisionRom_cell stateFits opcodeFits zero negative
    rw [← joined, Array.getElem?_eq_getElem inside, atAddress, Option.some.injEq] at held
    subst held
    rw [compiled.schema_eq]
    rcases origin with ⟨state, opcode, declared, name, located, successor, coded⟩ | own
    · exact stays s state stateFits located opcode declared zero negative name _ successor
        (compiled.idxOf?_of_codeOf? coded)
    · exact own ▸ stateFits

/-- A program whose states all have a code in the field never leads to another. -/
theorem staysAddressable_of_size_le
    (small : program.size ≤ 2 ^ schema.geometry.stateBits) : program.StaysAddressable schema := by
  intro i state _ _ opcode _ zero negative name position _ placed
  have inside := (List.findIdx?_eq_some_iff_getElem.mp placed).1
  rw [Program.names, List.length_map] at inside
  exact Nat.lt_of_lt_of_le inside small

/-- One cycle: from a code in the field the machine reads a byte, which is again a code in the
field, and it is the code of a state if the first one was. -/
theorem cycle?_stays (compiled : Compiled schema program m) (fits : m.FitsStateField)
    {code opcode : UInt8} (codeFits : code.toNat < 2 ^ schema.geometry.stateBits)
    (opcodeFits : opcode.toNat < 2 ^ schema.geometry.opcodeBits) (zero negative : Bool) :
    ∃ next, m.cycle? code opcode zero negative = some next ∧
      next.toNat < 2 ^ schema.geometry.stateBits ∧
      (code.toNat < program.size → next.toNat < program.size) := by
  obtain ⟨next, held, origin⟩ := compiled.decisionRom_cell codeFits opcodeFits zero negative
  have small := fits next (Array.mem_of_getElem? held)
  rw [compiled.schema_eq] at small
  refine ⟨next, ?_, small, ?_⟩
  · rw [Microcode.cycle?, compiled.schema_eq, Address.encode_eq_joined _ _ codeFits]
    exact held
  · intro declared
    rcases origin with ⟨_, _, _, _, _, _, coded⟩ | own
    · exact compiled.code_lt_size coded
    · exact own ▸ declared

/-- Any number of cycles: the machine never leaves the codes in the field. -/
theorem driveWires?_stays (compiled : Compiled schema program m) (fits : m.FitsStateField)
    (inputs : List Wires)
    (carried : ∀ wires ∈ inputs, wires.opcode.toNat < 2 ^ schema.geometry.opcodeBits)
    {start : UInt8} (startFits : start.toNat < 2 ^ schema.geometry.stateBits) :
    ∃ code, m.driveWires? start inputs = some code ∧
      code.toNat < 2 ^ schema.geometry.stateBits ∧
      (start.toNat < program.size → code.toNat < program.size) := by
  induction inputs generalizing start with
  | nil => exact ⟨start, rfl, startFits, id⟩
  | cons wires rest ih =>
      obtain ⟨next, cycled, nextFits, nextDeclared⟩ :=
        compiled.cycle?_stays fits startFits (carried wires List.mem_cons_self) wires.zero
          wires.negative
      obtain ⟨code, driven, codeFits, codeDeclared⟩ :=
        ih (fun other member => carried other (List.mem_cons_of_mem _ member)) nextFits
      refine ⟨code, ?_, codeFits, codeDeclared ∘ nextDeclared⟩
      rw [Microcode.driveWires?, List.foldlM_cons, cycled]
      exact driven

end Compiled

/-- The bytes of the decision ROM fit the state field exactly if no state that the field can hold
leads to one that it cannot; so they do if the field can hold all states. Then every run over codes
in the field stays among them, and with a word in the control ROM if it began with one. -/
theorem decisionRom_fits_stateField {schema : Schema} {program : Program} {m : Microcode}
    (success : compile schema program = .ok m) :
    ((∀ byte ∈ m.decisionRom, byte.toNat < 2 ^ schema.geometry.stateBits) ↔
      program.StaysAddressable schema) ∧
    (program.size ≤ 2 ^ schema.geometry.stateBits → program.StaysAddressable schema) ∧
    (program.StaysAddressable schema → ∀ (start : UInt8) (inputs : List Wires),
      start.toNat < 2 ^ schema.geometry.stateBits →
      (∀ wires ∈ inputs, wires.opcode.toNat < 2 ^ schema.geometry.opcodeBits) →
      ∃ code, m.driveWires? start inputs = some code ∧
        code.toNat < 2 ^ schema.geometry.stateBits ∧
        (start.toNat < m.controlRom.size → code.toNat < m.controlRom.size)) := by
  have compiled := compiled_of_compile success
  have fitsIff := compiled.fitsStateField_iff
  refine ⟨?_, Compiled.staysAddressable_of_size_le, ?_⟩
  · rw [← fitsIff, Microcode.FitsStateField, compiled.schema_eq]
  · intro stays start inputs startFits carried
    obtain ⟨code, driven, codeFits, declared⟩ :=
      compiled.driveWires?_stays (fitsIff.mpr stays) inputs carried startFits
    refine ⟨code, driven, codeFits, ?_⟩
    rw [compiled.size_controlRom]
    omega

/-- The pulse generator has fewer states than its field has codes, so it stays where it is safe:
an instruction pulses, and a code without a symbol changes nothing. -/
theorem decisionRom_fits_stateField_pulse :
    ∃ m, compile Pulse.schema Pulse.program = .ok m ∧
      (∀ byte ∈ m.decisionRom, byte.toNat < 4) ∧
      ∃ code, m.driveWires? 0 [⟨5, true, false⟩, ⟨7, false, false⟩] = some code ∧
        code.toNat < m.controlRom.size := by
  obtain ⟨m, success⟩ := Pulse.compiles
  obtain ⟨fitsIff, ofSize, runs⟩ := decisionRom_fits_stateField success
  have stays := ofSize (by decide)
  obtain ⟨code, driven, -, worded⟩ :=
    runs stays 0 [⟨5, true, false⟩, ⟨7, false, false⟩] (by decide) (by decide)
  have started : (0 : UInt8).toNat < m.controlRom.size := by
    rw [(compiled_of_compile success).size_controlRom]
    decide
  exact ⟨m, success, fitsIff.mpr stays, code, driven, worded started⟩

/-! ## A program too large for its field

One bit of state tells two codes apart; the first of three states leads to the third.
-/
namespace Crowded

def schema : Schema where
  geometry := ⟨1, 1⟩
  opcodes := [⟨"NOOP", 0⟩]
  defaults := Assignment.zero
  valid := by decide
  symbols_distinct := by decide
  codes_distinct := by decide
  codes_fit := by decide

def program : Program :=
  ⟨[(State.named "FIRST").goto "THIRD", (State.named "SECOND").goto "FIRST",
    (State.named "THIRD").goto "FIRST"]⟩

theorem compiles : ∃ m, compile schema program = .ok m :=
  (reports_compile schema program).exists_ok_iff.mpr (by decide)

end Crowded

/-- A program may compile although a byte of its decision ROM does not fit the state field. -/
theorem decisionRom_outgrows_stateField :
    ¬ ∀ (schema : Schema) (program : Program) (m : Microcode), compile schema program = .ok m →
      ∀ byte ∈ m.decisionRom, byte.toNat < 2 ^ schema.geometry.stateBits := by
  intro always
  obtain ⟨m, success⟩ := Crowded.compiles
  have compiled := compiled_of_compile success
  have located : Crowded.program.states[0]? = some ((State.named "FIRST").goto "THIRD") := rfl
  have declared : ⟨"NOOP", 0⟩ ∈ Crowded.schema.opcodes := by decide
  obtain ⟨name, code, held, successor, coded⟩ :=
    compiled.decisionRom_mapped located declared (by decide) false false
  have third : name = "THIRD" := Option.some.inj successor.symm
  have small := always _ _ m success code (Array.mem_of_getElem? held)
  have place := compiled.idxOf?_of_codeOf? coded
  have last : Crowded.program.names.idxOf? "THIRD" = some 2 := by decide
  rw [third, last, Option.some.injEq] at place
  rw [← place] at small
  exact absurd small (by decide)

end ControlStore
