import ControlStore.Microcode.Image
import ControlStore.Proofs.Compiled
import ControlStore.Proofs.Matched
import ControlStore.Proofs.OpcodeTable
import ControlStore.Proofs.ProgramFaults

set_option autoImplicit false

/-!
The order in which opcodes are declared. It fixes where a table keeps the cells of an opcode, but
clauses ask for symbols and addresses for codes, so the hardware is the same for every order.
-/
namespace ControlStore

/-! ### Schemas -/

/-- Schemas with the same opcodes, in any order, and all else the same. -/
structure Schema.Reordered (first second : Schema) : Prop where
  geometry_eq : second.geometry = first.geometry
  defaults_eq : second.defaults = first.defaults
  opcodes_mem : ∀ opcode, opcode ∈ second.opcodes ↔ opcode ∈ first.opcodes

namespace Schema

variable {first second : Schema}

theorem Reordered.symbols_mem (reordered : Reordered first second) (symbol : String) :
    symbol ∈ second.opcodes.map (·.symbol) ↔ symbol ∈ first.opcodes.map (·.symbol) := by
  simp only [List.mem_map, reordered.opcodes_mem]

theorem Reordered.withDefault (reordered : Reordered first second) (name : String)
    (value : Nat) :
    Matched Eq Reordered (first.withDefault name value) (second.withDefault name value) := by
  unfold Schema.withDefault
  cases Signal.ofName? name with
  | none => exact rfl
  | some s =>
      exact
        { geometry_eq := reordered.geometry_eq
          defaults_eq := congrArg (·.set s value) reordered.defaults_eq
          opcodes_mem := reordered.opcodes_mem }

theorem Reordered.withDefaults (reordered : Reordered first second)
    (defaults : List (String × Nat)) :
    Matched Eq Reordered (first.withDefaults defaults) (second.withDefaults defaults) := by
  induction defaults generalizing first second with
  | nil => exact reordered
  | cons entry rest ih =>
      unfold Schema.withDefaults at ih ⊢
      rw [List.foldlM_cons, List.foldlM_cons]
      exact (reordered.withDefault entry.1 entry.2).bind fun _ _ next => ih next

/-- Opcodes that a schema can be built from can be declared in any order. -/
theorem build_perm {geometry : Geometry} {entries other : List (String × Nat)}
    (success : build geometry entries = .ok first) (perm : other.Perm entries) :
    ∃ second, build geometry other = .ok second ∧ Reordered first second := by
  obtain ⟨rfl, defaults, opcodes, fit⟩ := build_eq_ok_iff.mp success
  have reordered : (other.map Opcode.ofEntry).Perm first.opcodes := by
    rw [opcodes]
    exact perm.map _
  let second : Schema :=
    { geometry := first.geometry
      opcodes := other.map Opcode.ofEntry
      defaults := first.defaults
      valid := first.valid
      symbols_distinct := (reordered.map _).nodup_iff.mpr first.symbols_distinct
      codes_distinct := (reordered.map _).nodup_iff.mpr first.codes_distinct
      codes_fit := fun opcode member => first.codes_fit opcode (reordered.mem_iff.mp member) }
  refine ⟨second, build_eq_ok_iff.mpr ⟨rfl, defaults, rfl, ?_⟩, rfl, rfl, fun _ => reordered.mem_iff⟩
  exact fun entry member => fit entry (perm.mem_iff.mp member)

end Schema

/-! ### Faults -/

/-- The faults of a program depend on which symbols there are, not on their order. -/
theorem Program.faults_congr {first second : Schema}
    (same : ∀ symbol, symbol ∈ second.opcodes.map (·.symbol) ↔
      symbol ∈ first.opcodes.map (·.symbol)) (program : Program) :
    program.faults second = program.faults first := by
  have transition (state : State) : state.transitionFaults second program.names =
      state.transitionFaults first program.names :=
    State.transitionFaults_congr (fun symbol _ => same symbol) program.names
  simp only [Program.faults, transition]

/-! ### Compiled programs -/

/-- Compiled programs that no hardware tells apart. -/
structure Microcode.SameHardware (first second : Microcode) : Prop where
  decisionRom_eq : second.decisionRom = first.decisionRom
  controlRom_eq : second.controlRom = first.controlRom
  lookup?_eq : ∀ address, second.lookup? address = first.lookup? address
  next?_eq : ∀ state symbol zero negative,
    second.next? state symbol zero negative = first.next? state symbol zero negative

namespace Compiled

variable {first second : Schema} {program : Program} {m n : Microcode}

/-- The codes of states do not depend on the schema. -/
theorem index_eq (compiled : Compiled first program m) (other : Compiled second program n) :
    n.index = m.index :=
  StateIndex.ext (other.names_eq.trans compiled.names_eq.symm)

theorem codeOf?_eq (compiled : Compiled first program m) (other : Compiled second program n)
    (name : String) : n.codeOf? name = m.codeOf? name := by
  rw [Microcode.codeOf?, Microcode.codeOf?, compiled.index_eq other]

/-- The control words depend on the defaults alone. -/
theorem words_eq (compiled : Compiled first program m) (other : Compiled second program n)
    (defaults : second.defaults = first.defaults) : n.words = m.words := by
  apply Array.ext_getElem?
  intro i
  rw [compiled.getElem?_words, other.getElem?_words, defaults]

theorem lookup?_eq (compiled : Compiled first program m) (other : Compiled second program n)
    (reordered : first.Reordered second) (address : Address) :
    n.lookup? address = m.lookup? address := by
  by_cases past : program.size ≤ address.state.toNat
  · rw [compiled.lookup?_past past, other.lookup?_past past]
  · have located := List.getElem?_eq_getElem (Nat.lt_of_not_le past)
    by_cases mapped : ∃ opcode ∈ first.opcodes, opcode.code = address.opcode
    · obtain ⟨opcode, declared, coded⟩ := mapped
      obtain ⟨name, code, found, successor, named⟩ :=
        compiled.lookup?_successor address located declared coded
      obtain ⟨name', code', found', successor', named'⟩ :=
        other.lookup?_successor address located ((reordered.opcodes_mem opcode).mpr declared) coded
      rw [successor, Option.some.injEq] at successor'
      rw [compiled.codeOf?_eq other, ← successor', named] at named'
      rw [found, found', named']
    · have unmapped : ∀ opcode ∈ first.opcodes, opcode.code ≠ address.opcode :=
        fun opcode declared coded => mapped ⟨opcode, declared, coded⟩
      rw [compiled.lookup?_unmapped unmapped, other.lookup?_unmapped]
      exact fun opcode declared => unmapped opcode ((reordered.opcodes_mem opcode).mp declared)

theorem next?_eq (compiled : Compiled first program m) (other : Compiled second program n)
    (reordered : first.Reordered second) (state symbol : String) (zero negative : Bool) :
    n.next? state symbol zero negative = m.next? state symbol zero negative := by
  by_cases declared : symbol ∈ first.opcodes.map (·.symbol)
  · cases coded : m.codeOf? state with
    | none => rw [m.next?_eq_none (Or.inr coded),
        n.next?_eq_none (Or.inr ((compiled.codeOf?_eq other state).trans coded))]
    | some code =>
        obtain ⟨opcode, member, rfl⟩ := List.mem_map.mp declared
        obtain ⟨name, found, successor⟩ := compiled.next?_successor coded member zero negative
        obtain ⟨name', found', successor'⟩ := other.next?_successor
          ((compiled.codeOf?_eq other state).trans coded)
          ((reordered.opcodes_mem opcode).mpr member) zero negative
        rw [found, found', ← successor, ← successor']
  · have absent : symbol ∉ second.opcodes.map (·.symbol) :=
      fun member => declared ((reordered.symbols_mem symbol).mp member)
    rw [m.next?_eq_none (Or.inl (compiled.schema_eq ▸ declared)),
      n.next?_eq_none (Or.inl (other.schema_eq ▸ absent))]

theorem sameHardware (compiled : Compiled first program m) (other : Compiled second program n)
    (reordered : first.Reordered second) : m.SameHardware n := by
  have geometry : n.schema.geometry = m.schema.geometry := by
    rw [compiled.schema_eq, other.schema_eq, reordered.geometry_eq]
  have lookup := compiled.lookup?_eq other reordered
  have byte : n.decisionByte = m.decisionByte := by
    funext address
    rw [Microcode.decisionByte, Microcode.decisionByte, geometry, lookup]
  exact
    { decisionRom_eq := by rw [Microcode.decisionRom, Microcode.decisionRom, geometry, byte]
      controlRom_eq := by
        rw [Microcode.controlRom, Microcode.controlRom, geometry, compiled.index_eq other,
          compiled.words_eq other reordered.defaults_eq]
      lookup?_eq := lookup
      next?_eq := compiled.next?_eq other reordered }

end Compiled

theorem Schema.Reordered.compile {first second : Schema} (reordered : first.Reordered second)
    (program : Program) :
    Matched Eq Microcode.SameHardware (compile first program) (compile second program) := by
  have told := reports_compile second program
  rw [Program.faults_congr reordered.symbols_mem] at told
  have matched := Matched.of_reports (reports_compile first program) told
  rcases matched.error_or_ok with ⟨fault, fault', failed, also, same⟩ | ⟨m, n, success, also, -⟩
  · rw [failed, also]
    exact same
  · rw [success, also]
    exact (compiled_of_compile success).sameHardware (compiled_of_compile also) reordered

/-- Opcodes that a schema can be built from can be declared in any order. Whatever defaults are
then set and whatever program is compiled, both orders fail with the same error, or both give the
same ROMs, the same next code at every address and the same next state. -/
theorem compile_opcode_order {geometry : Geometry} {entries other : List (String × Nat)}
    {first : Schema} (success : Schema.build geometry entries = .ok first)
    (perm : other.Perm entries) :
    ∃ second, Schema.build geometry other = .ok second ∧ ∀ defaults,
      Matched Eq (fun first' second' => ∀ program,
          Matched Eq Microcode.SameHardware (compile first' program) (compile second' program))
        (first.withDefaults defaults) (second.withDefaults defaults) := by
  obtain ⟨second, built, reordered⟩ := Schema.build_perm success perm
  exact ⟨second, built, fun defaults =>
    (reordered.withDefaults defaults).imp (fun _ _ => id)
      fun _ _ also program => also.compile program⟩

/-- The pulse generator's opcodes declared the other way round, with its one default set. -/
theorem compile_opcode_order_pulse : ∃ second second' m n,
    Schema.build ⟨2, 3⟩ [("STAY", 2), ("GO", 5)] = .ok second ∧
      second.withDefaults [("b_select", 7)] = .ok second' ∧
      compile Pulse.schema Pulse.program = .ok m ∧ compile second' Pulse.program = .ok n ∧
      n.decisionRom = m.decisionRom ∧ n.controlRom = m.controlRom := by
  let first : Schema := { Pulse.schema with defaults := Assignment.zero }
  have built : Schema.build ⟨2, 3⟩ [("GO", 5), ("STAY", 2)] = .ok first :=
    Schema.build_eq_ok_iff.mpr ⟨rfl, rfl, rfl, by decide⟩
  obtain ⟨second, also, matched⟩ := compile_opcode_order built (List.Perm.swap _ _ [])
  have defaulted : first.withDefaults [("b_select", 7)] = .ok Pulse.schema := rfl
  obtain ⟨second', alsoDefaulted, compiled⟩ := (matched [("b_select", 7)]).exists_ok defaulted
  obtain ⟨m, success⟩ := Pulse.compiles
  obtain ⟨n, alsoSuccess, same⟩ := (compiled Pulse.program).exists_ok success
  exact ⟨second, second', m, n, also, alsoDefaulted, success, alsoSuccess, same.decisionRom_eq,
    same.controlRom_eq⟩

end ControlStore
