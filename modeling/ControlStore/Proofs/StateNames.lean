import ControlStore.Proofs.ControlRom
import ControlStore.Proofs.DecisionRom
import ControlStore.Proofs.Matched
import Mathlib.Data.Set.Function

set_option autoImplicit false

/-!
State names and the order of states. A name only ties a transition to a state, so a program whose
states are named anew compiles to the same tables and words, or fails alike. The order only fixes
the codes, so a program whose states are reordered answers the same when it is asked by name.
-/
namespace ControlStore

/-! ### New names -/

def Clause.rename (f : String → String) (clause : Clause) : Clause :=
  { clause with target := f clause.target }

def Transition.rename (f : String → String) : Transition → Transition
  | .always target => .always (f target)
  | .guarded clauses => .guarded (clauses.map (·.rename f))

def State.rename (f : String → String) (state : State) : State :=
  ⟨f state.name, state.control, state.next.map (·.rename f)⟩

/-- The program with new names for its states, wherever they occur. -/
def Program.rename (f : String → String) (program : Program) : Program :=
  ⟨program.states.map (·.rename f)⟩

/-- The error with new names for the states it tells. -/
def CompileError.rename (f : String → String) : CompileError → CompileError
  | .emptyProgram => .emptyProgram
  | .tooManyStates count limit => .tooManyStates count limit
  | .duplicateState name => .duplicateState (f name)
  | .schemaViolation state field => .schemaViolation (f state) field
  | .unresolvedTransition state => .unresolvedTransition (f state)
  | .unknownState state target => .unknownState (f state) (f target)
  | .unknownOpcode state symbol => .unknownOpcode (f state) symbol

/-- The names that occur in a program: those of its states and those of targets. -/
def Program.mentioned (program : Program) : List String :=
  program.names ++ program.states.flatMap (·.targets)

/-- Faults that are the same but for the new names. -/
def CompileError.Renamed (f : String → String) (fault fault' : CompileError) : Prop :=
  fault' = fault.rename f

/-- Compiled programs that are the same but for the new names. -/
structure Microcode.Renamed (f : String → String) (first second : Microcode) : Prop where
  states_eq : second.states = first.states.map f
  codeOf?_eq : ∀ name ∈ first.states, second.codeOf? (f name) = first.codeOf? name
  tables_eq : second.tables = first.tables
  words_eq : second.words = first.words
  decisionRom_eq : second.decisionRom = first.decisionRom
  controlRom_eq : second.controlRom = first.controlRom

section Rename

variable {f : String → String}

theorem Program.names_rename (program : Program) :
    (program.rename f).names = program.names.map f := by
  simp only [names, rename, List.map_map]
  rfl

/-! ### The index -/

theorem firstRepeat?_map (seen names : List String)
    (injective : Set.InjOn f {name | name ∈ seen ++ names}) :
    StateIndex.firstRepeat? (seen.map f) (names.map f) =
      (StateIndex.firstRepeat? seen names).map f := by
  induction names generalizing seen with
  | nil => rfl
  | cons name rest ih =>
      have again : f name ∈ seen.map f ↔ name ∈ seen := by
        refine ⟨fun member => ?_, List.mem_map_of_mem⟩
        obtain ⟨other, earlier, same⟩ := List.mem_map.mp member
        exact injective (by simp [earlier]) (by simp) same ▸ earlier
      have behind : Set.InjOn f {other | other ∈ name :: seen ++ rest} :=
        injective.mono fun other member => by simpa [or_left_comm] using member
      simp only [List.map_cons, StateIndex.firstRepeat?, again]
      split
      · rfl
      · exact ih (name :: seen) behind

theorem build_rename {names : List String} (injective : Set.InjOn f {name | name ∈ names}) :
    Matched (CompileError.Renamed f) (fun index index' => index'.names = index.names.map f)
      (StateIndex.build names) (StateIndex.build (names.map f)) := by
  have repeats : StateIndex.firstRepeat? [] (names.map f) =
      (StateIndex.firstRepeat? [] names).map f := firstRepeat?_map [] names injective
  unfold StateIndex.build
  simp only [List.map_eq_nil_iff, List.length_map]
  split
  · exact rfl
  · split
    · split
      · rename_i name found
        rw [found, Option.map_some] at repeats
        split
        · rename_i name' found'
          rw [repeats, Option.some.injEq] at found'
          exact congrArg CompileError.duplicateState found'.symm
        · rename_i fresh
          cases repeats.symm.trans fresh
      · rename_i fresh
        rw [fresh, Option.map_none] at repeats
        split
        · rename_i name' found'
          cases repeats.symm.trans found'
        · exact rfl
    · exact rfl

/-- The index of the new names, for names that stay apart under them. -/
structure IndexRenamed (f : String → String) (known : Set String) (index index' : StateIndex) :
    Prop where
  names_eq : index'.names = index.names.map f
  names_known : ∀ name ∈ index.names, name ∈ known
  injective : Set.InjOn f known

variable {known : Set String} {index index' : StateIndex}

theorem IndexRenamed.code?_eq (renamed : IndexRenamed f known index index') {name : String}
    (member : name ∈ known) : index'.code? (f name) = index.code? name := by
  refine Option.ext fun code => ?_
  rw [index.code?_eq_some_iff, index'.code?_eq_some_iff, renamed.names_eq, List.getElem?_map,
    Option.map_eq_some_iff]
  constructor
  · rintro ⟨other, located, same⟩
    have declared := renamed.names_known other (List.mem_of_getElem? located)
    exact renamed.injective declared member same ▸ located
  · exact fun located => ⟨name, located, rfl⟩

/-! ### States -/

namespace State

variable (schema : Schema) (state : State)

theorem targetCode_rename (renamed : IndexRenamed f known index index') {target : String}
    (member : target ∈ known) :
    Matched (CompileError.Renamed f) Eq (state.targetCode index target)
      ((state.rename f).targetCode index' (f target)) := by
  rw [targetCode, targetCode, renamed.code?_eq member]
  cases index.code? target with
  | none => exact rfl
  | some code => exact rfl

theorem opcodeIndex_rename (symbol : String) :
    Matched (CompileError.Renamed f) Eq (state.opcodeIndex schema symbol)
      ((state.rename f).opcodeIndex schema symbol) := by
  unfold opcodeIndex
  cases schema.indexOf? symbol with
  | none => exact rfl
  | some position => exact rfl

theorem opcodeFilter_rename (listed : Option (List String)) :
    Matched (CompileError.Renamed f) Eq (state.opcodeFilter schema listed)
      ((state.rename f).opcodeFilter schema listed) := by
  cases listed with
  | none => exact rfl
  | some symbols =>
      have each : Matched (CompileError.Renamed f) Eq (symbols.mapM (state.opcodeIndex schema))
          ((symbols.map id).mapM ((state.rename f).opcodeIndex schema)) :=
        Matched.mapM_eq fun symbol _ => state.opcodeIndex_rename schema symbol
      rw [List.map_id] at each
      exact each.map_eq some

theorem rule_rename (renamed : IndexRenamed f known index index') {clause : Clause}
    (member : clause.target ∈ known) :
    Matched (CompileError.Renamed f) Eq (state.rule schema index clause)
      ((state.rename f).rule schema index' (clause.rename f)) := by
  refine (state.targetCode_rename renamed member).bind_eq fun target => ?_
  exact (state.opcodeFilter_rename schema clause.opcodes).bind_eq fun opcodes => rfl

/-- The table of a state does not change: it holds codes, and those are positions. -/
theorem table_rename (renamed : IndexRenamed f known index index')
    (declared : state.name ∈ index.names) (members : ∀ target ∈ state.targets, target ∈ known) :
    Matched (CompileError.Renamed f) Eq (state.table schema index)
      ((state.rename f).table schema index') := by
  unfold targets at members
  unfold table
  cases next : state.next with
  | none =>
      rw [rename, next]
      exact rfl
  | some transition =>
      rw [next] at members
      cases transition with
      | always target =>
          rw [rename, next]
          exact (state.targetCode_rename renamed (members target (by simp))).map_eq _
      | guarded clauses =>
          rw [rename, next]
          refine Matched.bind_eq (Matched.mapM_eq fun clause member => ?_) fun rules => ?_
          · exact state.rule_rename schema renamed
              (members clause.target (List.mem_map_of_mem member))
          · exact (state.targetCode_rename renamed
              (renamed.names_known state.name declared)).map_eq _

theorem word_rename (defaults : Assignment) :
    Matched (CompileError.Renamed f) Eq (state.control.word defaults state.name)
      ((state.rename f).control.word defaults (state.rename f).name) := by
  refine Matched.map_eq ControlWord.pack ?_
  simp only [Record.assignment, rename]
  cases state.control.unknownName? with
  | none => exact rfl
  | some field => exact rfl

end State

/-! ### Programs -/

/-- Names that stay apart may be exchanged for others. -/
theorem compile_rename (schema : Schema) {program : Program}
    (injective : Set.InjOn f {name | name ∈ program.mentioned}) :
    Matched (CompileError.Renamed f) (Microcode.Renamed f) (compile schema program)
      (compile schema (program.rename f)) := by
  have declared : ∀ name ∈ program.names, name ∈ program.mentioned :=
    fun name member => List.mem_append_left _ member
  have targeted : ∀ state ∈ program.states, ∀ target ∈ state.targets,
      target ∈ program.mentioned := fun state member target targeted =>
    List.mem_append_right _ (List.mem_flatMap.mpr ⟨state, member, targeted⟩)
  have built := build_rename (injective.mono declared)
  rw [← program.names_rename] at built
  -- Success is needed of the index, to know whose names it holds.
  unfold compile
  rcases built.error_or_ok with ⟨fault, fault', failed, also, told⟩ |
    ⟨index, index', success, also, names⟩
  · rw [failed, also]
    exact told
  rw [success, also]
  have own := StateIndex.names_of_build success
  have renamed : IndexRenamed f {name | name ∈ program.mentioned} index index' :=
    ⟨names, fun name member => declared name (own ▸ member), injective⟩
  have tables : Matched (CompileError.Renamed f) Eq (resolve schema index program.states)
      (resolve schema index' (program.rename f).states) :=
    Matched.mapM_eq fun state member => state.table_rename schema renamed
      (own ▸ List.mem_map_of_mem member) (targeted state member)
  have words : Matched (CompileError.Renamed f) Eq
      (program.states.mapM fun state => state.control.word schema.defaults state.name)
      ((program.rename f).states.mapM fun state =>
        state.control.word schema.defaults state.name) :=
    Matched.mapM_eq fun state _ => state.word_rename schema.defaults
  refine tables.bind_eq fun resolved => words.bind_eq fun packed => ?_
  exact
    { states_eq := names
      codeOf?_eq := fun name member => renamed.code?_eq (renamed.names_known name member)
      tables_eq := rfl
      words_eq := rfl
      decisionRom_eq := Microcode.decisionRom_congr rfl rfl
      controlRom_eq := Microcode.controlRom_congr rfl
        (by simp only [StateIndex.size, names, List.length_map]) rfl }

end Rename

/-! ### Another order -/

section Reorder

variable {schema : Schema} {first second : Program}

theorem Program.names_perm (perm : second.states.Perm first.states) :
    second.names.Perm first.names :=
  perm.map _

/-- Nothing that makes a program well formed depends on the order of its states. -/
theorem Program.WellFormed.perm (formed : first.WellFormed schema)
    (perm : second.states.Perm first.states) : second.WellFormed schema := by
  have names := Program.names_perm perm
  have size : second.size = first.size := perm.length_eq
  exact
    { nonempty := size ▸ formed.nonempty
      bounded := size ▸ formed.bounded
      distinct := names.nodup_iff.mpr formed.distinct
      resolved := fun state member => formed.resolved state (perm.mem_iff.mp member)
      targets := fun state member target targeted =>
        names.mem_iff.mpr (formed.targets state (perm.mem_iff.mp member) target targeted)
      opcodes := fun state member => formed.opcodes state (perm.mem_iff.mp member)
      fields := fun state member => formed.fields state (perm.mem_iff.mp member) }

theorem exists_compile_perm (schema : Schema) (perm : second.states.Perm first.states) :
    (∃ m, compile schema first = .ok m) ↔ ∃ n, compile schema second = .ok n := by
  rw [(reports_compile schema first).exists_ok_iff, (reports_compile schema second).exists_ok_iff,
    Program.faults_eq_nil_iff, Program.faults_eq_nil_iff]
  exact ⟨fun formed => formed.perm perm, fun formed => formed.perm perm.symm⟩

/-- Names are distinct, so the state of a name is the same in every order. -/
theorem Program.state?_perm (distinct : first.names.Nodup) (perm : second.states.Perm first.states)
    (name : String) : second.state? name = first.state? name := by
  refine Option.ext fun state => ?_
  unfold Program.state?
  rw [find?_key_eq_some_iff State.name distinct,
    find?_key_eq_some_iff State.name ((names_perm perm).nodup_iff.mpr distinct), perm.mem_iff]

end Reorder

/-- State names are labels and their order fixes codes only. A program that has new names for its
states, all of them different, fails with the same error under the new names, or compiles to the
same tables, words and ROMs. A program with its states in another order compiles exactly if it did,
and by name it then has the same successors and the same words. -/
theorem compile_rename_reorder (schema : Schema) (program : Program) :
    (∀ f : String → String, Set.InjOn f {name | name ∈ program.mentioned} →
      Matched (fun fault fault' => fault' = fault.rename f) (Microcode.Renamed f)
        (compile schema program) (compile schema (program.rename f))) ∧
    ∀ other : Program, other.states.Perm program.states →
      ((∃ m, compile schema program = .ok m) ↔ ∃ n, compile schema other = .ok n) ∧
      ∀ m n, compile schema program = .ok m → compile schema other = .ok n →
        ∀ name, n.word? name = m.word? name ∧ ∀ symbol zero negative,
          n.next? name symbol zero negative = m.next? name symbol zero negative := by
  refine ⟨fun f injective => compile_rename schema injective, fun other perm => ?_⟩
  refine ⟨exists_compile_perm schema perm, fun m n success also name => ?_⟩
  have compiled := compiled_of_compile success
  have reordered := compiled_of_compile also
  have state := Program.state?_perm compiled.names_nodup perm name
  refine ⟨?_, fun symbol zero negative => ?_⟩
  · rw [compiled.word?_eq, reordered.word?_eq, state]
  · rw [compiled.next?_eq_successor?, reordered.next?_eq_successor?, Program.successor?,
      Program.successor?, state]

/-- The pulse generator under longer names, and with its states the other way round. -/
theorem compile_rename_reorder_pulse : ∃ m n k, compile Pulse.schema Pulse.program = .ok m ∧
    compile Pulse.schema (Pulse.program.rename ("PULSE_" ++ ·)) = .ok n ∧
    n.decisionRom = m.decisionRom ∧ n.words = m.words ∧
    compile Pulse.schema ⟨Pulse.program.states.reverse⟩ = .ok k ∧
    k.next? "IDLE" "GO" true false = m.next? "IDLE" "GO" true false := by
  obtain ⟨m, success⟩ := Pulse.compiles
  obtain ⟨renames, reorders⟩ := compile_rename_reorder Pulse.schema Pulse.program
  obtain ⟨n, renamed, same⟩ := (renames ("PULSE_" ++ ·) fun _ _ _ _ equal =>
    (String.append_right_inj "PULSE_").mp equal).exists_ok success
  obtain ⟨compiles, byName⟩ := reorders ⟨Pulse.program.states.reverse⟩ (List.reverse_perm _)
  obtain ⟨k, reordered⟩ := compiles.mp ⟨m, success⟩
  exact ⟨m, n, k, success, renamed, same.decisionRom_eq, same.words_eq, reordered,
    (byName m k success reordered "IDLE").2 "GO" true false⟩

end ControlStore
