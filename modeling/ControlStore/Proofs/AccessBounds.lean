import ControlStore.Microcode.Image
import ControlStore.Proofs.AddressFields
import ControlStore.Proofs.CheckedTables
import ControlStore.Proofs.Compiled

set_option autoImplicit false

/-!
Nothing is accessed that is not there. What is read from a compiled program is read at addresses
whose fields are cut to their widths, so that the table of codes has a place for every opcode, and
from tables with four cells to an opcode, so that they have a cell for every position.
-/
namespace ControlStore

-- Powers are those of the core library, whatever else is imported beside this module.
attribute [local instance (2000)] instPowNat

open DecisionTable (slot flagPairs)

/-- Decoding cuts the opcode to the width of its field. -/
theorem Address.opcode_decode_lt (g : Geometry) (address : Nat) :
    (Address.decode g address).opcode.toNat < g.opcodeSpace := by
  rw [Address.decode, UInt8.toNat_ofNat']
  exact Nat.lt_of_le_of_lt (Nat.mod_le _ _) (Nat.mod_lt _ (Nat.two_pow_pos g.opcodeBits))

theorem Geometry.addressBits_lt (g : Geometry) (valid : g.Valid) : g.addressBits < 64 := by
  obtain ⟨⟨-, states⟩, -, opcodes⟩ := valid
  have byte : maxFieldBits = 8 := rfl
  have two : flagBits = 2 := rfl
  rw [addressBits]
  omega

/-- All tables of a compiled program have four cells to an opcode. -/
theorem Compiled.size_table {schema : Schema} {program : Program} {plain : Microcode}
    (compiled : Compiled schema program plain) {code : Nat} {table : DecisionTable}
    (located : plain.tables[code]? = some table) :
    table.size = schema.opcodes.length * flagPairs := by
  rw [compiled.getElem?_tables, Option.bind_eq_some_iff] at located
  obtain ⟨state, -, resolved⟩ := located
  exact State.size_table (toOption_eq_some_iff.mp resolved)

namespace Checked

variable {ε : Type}

namespace Microcode.Holds

variable {m : Checked.Microcode} {schema : Schema} {program : Program}
  {plain : ControlStore.Microcode}

/-- At an address whose opcode fits its field every place is there. -/
theorem lookup?_eq (holds : m.Holds plain) (compiled : Compiled schema program plain)
    {address : Address} (fits : address.opcode.toNat < schema.geometry.opcodeSpace) :
    (m.lookup? address : Checked ε (Option UInt8)) = .ok (plain.lookup? address) := by
  have registry := holds.registry
  rw [compiled.schema_eq] at registry
  have place : address.opcode.toNat < m.registry.byCode.size := registry.size_byCode ▸ fits
  have position := registry.indexOfCode?_eq address.opcode
  rw [Registry.indexOfCode?, Array.getElem?_eq_getElem place, Option.join_some] at position
  rw [lookup?, holds.tables_eq, ControlStore.Microcode.lookup?, compiled.schema_eq, ← position]
  cases located : plain.tables[address.state.toNat]? with
  | none => rfl
  | some table =>
      simp only [read_of_lt place, ok_bind]
      cases declared : m.registry.byCode[address.opcode.toNat] with
      | none => rfl
      | some index =>
          rw [declared] at position
          have named := schema.indexOfCode?_eq_some_iff.mp position.symm
          have among : index < schema.opcodes.length := by
            obtain ⟨opcode, listed, -⟩ := Option.map_eq_some_iff.mp named
            exact (List.getElem?_eq_some_iff.mp listed).1
          have cell : slot index address.zero address.negative < table.cells.size := by
            rw [← DecisionTable.size, compiled.size_table located]
            exact (DecisionTable.slot_lt_iff ..).mpr among
          simp only [read_of_lt cell, Option.bind_eq_bind, Option.bind_some, DecisionTable.get?,
            Array.getElem?_eq_getElem cell]
          rfl

theorem decisionByte_eq (holds : m.Holds plain) (compiled : Compiled schema program plain)
    {address : Nat} (inside : address < schema.geometry.romLength) :
    (m.decisionByte address : Checked ε UInt8) = .ok (plain.decisionByte address) := by
  have bits := schema.geometry.addressBits_lt schema.valid
  have room := Nat.pow_lt_pow_right (show 1 < 2 by decide) bits
  have held : (BitVec.ofNat 64 address).toNat = address := by
    rw [BitVec.toNat_ofNat]
    exact Nat.mod_eq_of_lt (Nat.lt_trans inside room)
  rw [decisionByte, holds.registry.geometry_eq, compiled.schema_eq, decode_eq schema.valid, held,
    ok_bind, holds.lookup?_eq compiled (Address.opcode_decode_lt ..), ok_bind,
    ControlStore.Microcode.decisionByte, compiled.schema_eq]
  rfl

/-- The decision ROM is read at all its addresses. -/
theorem decisionRom_eq (holds : m.Holds plain) (compiled : Compiled schema program plain) :
    (m.decisionRom : Checked ε (Array UInt8)) = .ok plain.decisionRom := by
  have room := schema.geometry.addressBits_lt schema.valid
  have bytes : (List.range schema.geometry.romLength).mapM m.decisionByte =
      (.ok ((List.range schema.geometry.romLength).map plain.decisionByte) : Checked ε _) :=
    mapM_ok fun address member => holds.decisionByte_eq compiled (List.mem_range.mp member)
  rw [decisionRom, holds.registry.geometry_eq, compiled.schema_eq, power_of_lt room, ok_bind,
    toNat_power room, ← Geometry.romLength, bytes, ok_bind, ControlStore.Microcode.decisionRom,
    compiled.schema_eq, ← List.toArray_range, List.map_toArray]
  rfl

/-- There are words enough for the control ROM. -/
theorem controlRom_eq (holds : m.Holds plain) (compiled : Compiled schema program plain) :
    (m.controlRom : Checked ε (Array Nat)) = .ok plain.controlRom := by
  have room : schema.geometry.stateBits < 64 := Nat.lt_of_le_of_lt schema.valid.1.2 (by decide)
  have enough : min plain.index.size schema.geometry.stateSpace ≤ plain.words.size := by
    rw [compiled.words_size, compiled.index_size]
    exact Nat.min_le_left _ _
  rw [controlRom, holds.registry.geometry_eq, compiled.schema_eq, power_of_lt room, ok_bind,
    toNat_power room, ← Geometry.stateSpace, holds.words_eq, holds.codes.size_eq,
    front_of_le enough, ControlStore.Microcode.controlRom, compiled.schema_eq]
  rfl

end Microcode.Holds

end Checked

open Checked (Registry RunsAs tell)

/-- No index, slice, shift or byte is out of range. Whatever geometry, opcodes and defaults are
given, a registry is built or refused without an access that cannot be made, and refused for the
faults of a schema. A registry that is built finds symbols and codes as the schema does, decodes
every register and encodes all fields, no bit lost. Whatever program is given, it is compiled or
refused likewise, with the tables and words that are made without checks; look-ups at the addresses
of the decision ROM and both ROMs then read what is there. -/
theorem accesses_stay_inside (geometry : Geometry) (entries defaults : List (String × Nat)) :
    (∀ fault, Registry.buildWith geometry entries defaults ≠ .error (.access fault)) ∧
    RunsAs Registry.Holds (Registry.buildWith geometry entries defaults)
      (Schema.build geometry entries >>= (·.withDefaults defaults)) ∧
    ∀ registry, Registry.buildWith geometry entries defaults = .ok registry →
      ∃ schema, (Schema.build geometry entries >>= (·.withDefaults defaults)) = .ok schema ∧
        registry.Holds schema ∧
        (∀ symbol, registry.codeOf symbol = tell (schema.codeOf symbol)) ∧
        (∀ code, (registry.symbolOf? code : Checked Empty _) = .ok (schema.symbolOf? code)) ∧
        (∀ address, (Checked.decode geometry address : Checked Empty _) =
          .ok (Address.decode geometry address.toNat)) ∧
        (∀ a, ∃ word, (Checked.encode geometry a : Checked Empty _) = .ok word ∧
          word.toNat = a.encode geometry) ∧
        ∀ program,
          (∀ fault, Checked.compile registry program ≠ .error (.access fault)) ∧
          RunsAs Checked.Microcode.Holds (Checked.compile registry program)
            (compile schema program) ∧
          ∀ m, Checked.compile registry program = .ok m →
            ∃ plain, compile schema program = .ok plain ∧
              (∀ address < geometry.romLength,
                (m.lookup? (Address.decode geometry address) : Checked Empty _) =
                  .ok (plain.lookup? (Address.decode geometry address))) ∧
              (m.decisionRom : Checked Empty _) = .ok plain.decisionRom ∧
              (m.controlRom : Checked Empty _) = .ok plain.controlRom := by
  have runs : RunsAs Registry.Holds (Registry.buildWith geometry entries defaults)
      (Schema.build geometry entries >>= (·.withDefaults defaults)) :=
    (Registry.build_runsAs geometry entries).bind fun _ _ holds => holds.withDefaults defaults
  refine ⟨runs.ne_access, runs, fun registry built => ?_⟩
  obtain ⟨schema, accepted, holds⟩ := runs.exists_ok built
  have same : schema.geometry = geometry := by
    obtain ⟨bare, declared, defaulted⟩ := bind_eq_ok_iff.mp accepted
    obtain ⟨_, rfl⟩ := Schema.exists_withDefaults defaulted
    exact (Schema.build_eq_ok_iff.mp declared).1
  have valid : geometry.Valid := same ▸ schema.valid
  refine ⟨schema, accepted, holds, holds.codeOf_eq, holds.symbolOf?_eq, Checked.decode_eq valid,
    Checked.encode_eq valid, fun program => ?_⟩
  have compiles := Checked.compile_runsAs holds program
  refine ⟨compiles.ne_access, compiles, fun m success => ?_⟩
  obtain ⟨plain, succeeded, like⟩ := compiles.exists_ok success
  have compiled := compiled_of_compile succeeded
  refine ⟨plain, succeeded, fun address _ => ?_, like.decisionRom_eq compiled,
    like.controlRom_eq compiled⟩
  exact like.lookup?_eq compiled (same ▸ Address.opcode_decode_lt geometry address)

/-- The pulse generator's registry has the codes of its opcodes, and its program compiles: at
address 88, with `GO` and the zero flag, the pulse follows. A state without a transition is refused,
and so is a field of 64 bits, before a shift by its width is made. -/
theorem accesses_stay_inside_pulse :
    (∃ registry m plain,
      Registry.buildWith ⟨2, 3⟩ [("GO", 5), ("STAY", 2)] [("b_select", 7)] = .ok registry ∧
        registry.codeOf "STAY" = .ok 2 ∧
        (registry.symbolOf? 5 : Checked Empty _) = .ok (some "GO") ∧
        (Checked.decode ⟨2, 3⟩ 88 : Checked Empty _) = .ok ⟨0, false, true, 5⟩ ∧
        Checked.compile registry Pulse.program = .ok m ∧
        compile Pulse.schema Pulse.program = .ok plain ∧
        (m.lookup? ⟨0, false, true, 5⟩ : Checked Empty _) = .ok (some 1) ∧
        (m.decisionRom : Checked Empty _) = .ok plain.decisionRom ∧
        (m.controlRom : Checked Empty _) = .ok plain.controlRom ∧
        Checked.compile registry ⟨[State.named "END"]⟩ =
          .error (.told (.unresolvedTransition "END"))) ∧
    Registry.buildWith ⟨5, 64⟩ [("GO", 5)] [] = .error (.told (.invalidGeometry 5 64)) := by
  let bare : Schema := { Pulse.schema with defaults := Assignment.zero }
  have declared : Schema.build ⟨2, 3⟩ [("GO", 5), ("STAY", 2)] = .ok bare :=
    Schema.build_eq_ok_iff.mpr ⟨rfl, rfl, rfl, by decide⟩
  have accepted : (Schema.build ⟨2, 3⟩ [("GO", 5), ("STAY", 2)] >>=
      (·.withDefaults [("b_select", 7)])) = .ok Pulse.schema := by
    rw [declared]
    rfl
  obtain ⟨-, runs, inside⟩ :=
    accesses_stay_inside ⟨2, 3⟩ [("GO", 5), ("STAY", 2)] [("b_select", 7)]
  obtain ⟨registry, built, -⟩ := runs.exists_ok_left accepted
  obtain ⟨schema, same, -, codes, symbols, decoded, -, programs⟩ := inside registry built
  cases accepted.symm.trans same
  obtain ⟨plain, success⟩ := Pulse.compiles
  obtain ⟨-, compiles, reads⟩ := programs Pulse.program
  obtain ⟨m, made, -⟩ := compiles.exists_ok_left success
  obtain ⟨_, also, lookups, decision, control⟩ := reads m made
  cases success.symm.trans also
  refine ⟨⟨registry, m, plain, built, codes "STAY", symbols 5, decoded 88, made, success, ?_,
    decision, control, ?_⟩, ?_⟩
  · have compiled := compiled_of_compile success
    have located : Pulse.program.states[0]? = some Pulse.idle := rfl
    have go : ⟨"GO", 5⟩ ∈ Pulse.schema.opcodes := by decide
    have second : plain.codeOf? "PULSE" = some 1 := compiled.codeOf?_eq_some_iff.mpr rfl
    obtain ⟨name, code, found, successor, coded⟩ :=
      compiled.lookup?_successor ⟨0, false, true, 5⟩ located go rfl
    cases successor
    cases second.symm.trans coded
    exact found ▸ lookups 88 (by decide)
  · exact (programs ⟨[State.named "END"]⟩).2.1.eq_error rfl
  · exact (accesses_stay_inside ⟨5, 64⟩ [("GO", 5)] []).2.1.eq_error rfl

end ControlStore
