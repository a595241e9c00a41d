import ControlStore.Proofs.ResolvedTables
import ControlStore.Proofs.StateFrame

set_option autoImplicit false

/-!
Transitions written in another way. Compiling sees of a transition its faults and its successors and
nothing else, so a transition to one state is the same as a single clause without restrictions, and
staying where no clause accepts is the same as a last clause that says so.
-/
namespace ControlStore

/-! ### What a compilation depends on -/

/-- Compiling sees of a state its name, its control record and its table. -/
theorem compile_congr {schema : Schema} {first second : Program}
    (kept : second.states.map (fun state => (state.name, state.control)) =
      first.states.map fun state => (state.name, state.control))
    (tables : ∀ index, StateIndex.build first.names = .ok index →
      second.states.map (·.table schema index) = first.states.map (·.table schema index)) :
    compile schema second = compile schema first := by
  have words : second.states.map (fun state => state.control.word schema.defaults state.name) =
      first.states.map fun state => state.control.word schema.defaults state.name := by
    have words := congrArg (List.map fun part => part.2.word schema.defaults part.1) kept
    rwa [List.map_map, List.map_map] at words
  unfold compile resolve
  rw [Program.names_eq_of_kept kept, mapM_congr_of_map words]
  refine bind_congr_ok fun index built => ?_
  rw [mapM_congr_of_map (tables index built)]

theorem Program.editedAt_branch (program : Program) (i : Nat) (clauses : List Clause) :
    program.EditedAt i State.control (program.modify i (·.branch clauses)) :=
  program.editedAt_modify i fun _ => ⟨rfl, rfl⟩

theorem Program.getElem?_modify_self {program : Program} {i : Nat} {state : State}
    (located : program.states[i]? = some state) (change : State → State) :
    (program.modify i change).states[i]? = some (change state) := by
  rw [modify, List.getElem?_modify_eq, located]
  rfl

/-- Other clauses in one state, or clauses in the place of one target, change nothing if faults and
successors stay the same. -/
theorem compile_branch {schema : Schema} {program : Program} {i : Nat} {state : State}
    (located : program.states[i]? = some state) {clauses : List Clause}
    (faults : (state.branch clauses).transitionFaults schema program.names =
      state.transitionFaults schema program.names)
    (successors : ∀ opcode ∈ schema.opcodes, ∀ zero negative,
      (state.branch clauses).successor? opcode.symbol zero negative =
        state.successor? opcode.symbol zero negative) :
    compile schema (program.modify i (·.branch clauses)) = compile schema program := by
  have edited := program.editedAt_branch i clauses
  refine compile_congr edited.kept fun index built => List.ext_getElem? fun j => ?_
  have names := StateIndex.names_of_build built
  have declared : state.name ∈ index.names := by
    rw [names]
    exact List.mem_map_of_mem (List.mem_of_getElem? located)
  have same : (state.branch clauses).table schema index = state.table schema index := by
    have branched : (state.branch clauses).name ∈ index.names := declared
    refine State.table_congr ?_ successors
    rw [State.tableFaults_of_mem schema declared, State.tableFaults_of_mem schema branched, names,
      faults]
  rw [List.getElem?_map, List.getElem?_map]
  by_cases here : j = i
  · subst here
    rw [Program.getElem?_modify_self located, located]
    exact congrArg some same
  · rw [edited.elsewhere j here]

/-! ### First match over lists of clauses -/

namespace Clause

variable (own : String) (clause : Clause) (before rest : List Clause) (symbol : String)
  (zero negative : Bool)

@[simp] theorem target_goto (target : String) : (goto target).target = target := rfl

@[simp] theorem accepts_goto (target : String) :
    (goto target).accepts symbol zero negative = true := rfl

@[simp] theorem faults_goto (schema : Schema) (names : List String) (target : String) :
    (goto target).faults schema names own =
      faultUnless (target ∈ names) (.unknownState own target) :=
  List.append_nil _

@[simp] theorem firstTarget_nil : firstTarget own [] symbol zero negative = own := rfl

@[simp] theorem firstTarget_cons : firstTarget own (clause :: rest) symbol zero negative =
    if clause.accepts symbol zero negative then clause.target
    else firstTarget own rest symbol zero negative := by
  unfold firstTarget
  rw [List.find?_cons]
  cases clause.accepts symbol zero negative <;> rfl

/-- Where the clauses before do not accept, those behind decide. -/
theorem firstTarget_append : firstTarget own (before ++ rest) symbol zero negative =
    firstTarget (firstTarget own rest symbol zero negative) before symbol zero negative := by
  induction before with
  | nil => rfl
  | cons clause before ih => rw [List.cons_append, firstTarget_cons, firstTarget_cons, ih]

end Clause

namespace State

variable {state : State} {target : String} {clauses : List Clause}

theorem transitionFaults_of_always (always : state.next = some (.always target)) (schema : Schema)
    (names : List String) :
    state.transitionFaults schema names =
      faultUnless (target ∈ names) (.unknownState state.name target) := by
  rw [transitionFaults, always]

theorem transitionFaults_of_guarded (guarded : state.next = some (.guarded clauses))
    (schema : Schema) (names : List String) :
    state.transitionFaults schema names = clauses.flatMap (·.faults schema names state.name) := by
  rw [transitionFaults, guarded]

theorem successor?_of_always (always : state.next = some (.always target)) (symbol : String)
    (zero negative : Bool) : state.successor? symbol zero negative = some target := by
  rw [successor?, always, Option.map_some]

theorem successor?_of_guarded (guarded : state.next = some (.guarded clauses)) (symbol : String)
    (zero negative : Bool) :
    state.successor? symbol zero negative =
      some (Clause.firstTarget state.name clauses symbol zero negative) := by
  rw [successor?, guarded, Option.map_some]

@[simp] theorem transitionFaults_branch (state : State) (clauses : List Clause) (schema : Schema)
    (names : List String) :
    (state.branch clauses).transitionFaults schema names =
      clauses.flatMap (·.faults schema names state.name) :=
  transitionFaults_of_guarded rfl schema names

@[simp] theorem successor?_branch (state : State) (clauses : List Clause) (symbol : String)
    (zero negative : Bool) :
    (state.branch clauses).successor? symbol zero negative =
      some (Clause.firstTarget state.name clauses symbol zero negative) :=
  successor?_of_guarded rfl symbol zero negative

end State

/-- The two ways to write the same transition. A state that always goes to one target compiles like
one with a single clause for that target, declared or not; a state with clauses, or without any,
compiles like one with a last clause that stays. The result is the same as a whole, be it the fault
or the tables, the words and all that is told from them. -/
theorem compile_written_out (schema : Schema) (program : Program) (i : Nat) {state : State}
    (located : program.states[i]? = some state) :
    (∀ target, state.next = some (.always target) →
      compile schema (program.modify i (·.branch [Clause.goto target])) =
        compile schema program) ∧
    ∀ clauses, state.next = some (.guarded clauses) →
      compile schema (program.modify i (·.branch (clauses ++ [Clause.goto state.name]))) =
        compile schema program := by
  constructor
  · intro target always
    refine compile_branch located ?_ fun opcode _ zero negative => ?_
    · simp [State.transitionFaults_of_always always]
    · simp [State.successor?_of_always always]
  · intro clauses guarded
    have declared : state.name ∈ program.names :=
      List.mem_map_of_mem (List.mem_of_getElem? located)
    refine compile_branch located ?_ fun opcode _ zero negative => ?_
    · simp [State.transitionFaults_of_guarded guarded, faultUnless, declared]
    · simp [State.successor?_of_guarded guarded, Clause.firstTarget_append]

/-- The pulse generator with its one unconditional transition as a clause, with a last clause that
idles, and with a target that is not declared. -/
theorem compile_written_out_pulse :
    Pulse.program.states[1]? = some Pulse.pulse ∧ Pulse.program.states[0]? = some Pulse.idle ∧
    compile Pulse.schema (Pulse.program.modify 1 (·.branch [Clause.goto "IDLE"])) =
      compile Pulse.schema Pulse.program ∧
    (∃ clauses, Pulse.idle.next = some (.guarded clauses) ∧
      compile Pulse.schema (Pulse.program.modify 0 (·.branch (clauses ++ [Clause.goto "IDLE"]))) =
        compile Pulse.schema Pulse.program) ∧
    compile Pulse.schema ⟨[Pulse.idle, Pulse.pulse.branch [Clause.goto "END"], Pulse.stop]⟩ =
      .error (.unknownState "PULSE" "END") := by
  have lost : compile Pulse.schema ⟨[Pulse.idle, Pulse.pulse.goto "END", Pulse.stop]⟩ =
      .error (.unknownState "PULSE" "END") :=
    ((reports_compile _ _).eq_error_iff _).mpr (by decide)
  refine ⟨rfl, rfl, ?_, ⟨_, rfl, ?_⟩, Eq.trans ?_ lost⟩
  · exact (compile_written_out Pulse.schema Pulse.program 1 rfl).1 "IDLE" rfl
  · exact (compile_written_out Pulse.schema Pulse.program 0 rfl).2 _ rfl
  · exact (compile_written_out Pulse.schema ⟨[Pulse.idle, Pulse.pulse.goto "END", Pulse.stop]⟩ 1
      rfl).1 "END" rfl

end ControlStore
