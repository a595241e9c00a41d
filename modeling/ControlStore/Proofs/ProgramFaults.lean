import ControlStore.Microcode
import ControlStore.Proofs.FirstFault
import ControlStore.Proofs.Lookup
import Mathlib.Data.List.Basic

set_option autoImplicit false

/-!
All faults of a program, by names alone and in the order in which they count: first those of the
list of names, then those of the transitions, state by state, then those of the control records.
Compiling tells the first of them and succeeds exactly if there is none.
-/
namespace ControlStore

/-- The given fault, unless something holds. -/
def faultUnless (holds : Prop) [Decidable holds] (fault : CompileError) : List CompileError :=
  if holds then [] else [fault]

@[simp] theorem faultUnless_eq_nil_iff {holds : Prop} [Decidable holds] {fault : CompileError} :
    faultUnless holds fault = [] ↔ holds := by
  by_cases held : holds <;> simp [faultUnless, held]

theorem faultUnless_congr {holds holds' : Prop} [Decidable holds] [Decidable holds']
    (same : holds ↔ holds') (fault : CompileError) :
    faultUnless holds fault = faultUnless holds' fault := by
  simp only [faultUnless, same]

/-- The faults of a clause of a state: its target, then the opcodes it lists. -/
def Clause.faults (schema : Schema) (names : List String) (state : String) (clause : Clause) :
    List CompileError :=
  faultUnless (clause.target ∈ names) (.unknownState state clause.target) ++
    (clause.opcodes.getD []).flatMap fun symbol =>
      faultUnless (symbol ∈ schema.opcodes.map (·.symbol)) (.unknownOpcode state symbol)

namespace State

/-- The faults of a state's transition, clause by clause. -/
def transitionFaults (schema : Schema) (names : List String) (state : State) :
    List CompileError :=
  match state.next with
  | none => [.unresolvedTransition state.name]
  | some (.always target) => faultUnless (target ∈ names) (.unknownState state.name target)
  | some (.guarded clauses) => clauses.flatMap (·.faults schema names state.name)

/-- The fault of a guarded state that is not known itself: where no clause accepts, it stays. -/
def ownFaults (names : List String) (state : State) : List CompileError :=
  match state.next with
  | some (.guarded _) => faultUnless (state.name ∈ names) (.unknownState state.name state.name)
  | _ => []

/-- The faults of a state's table: those of its transition, then that of its own name. -/
def tableFaults (schema : Schema) (names : List String) (state : State) : List CompileError :=
  state.transitionFaults schema names ++ state.ownFaults names

/-- The faults of a state's control record: the names that are no signal, in ascending order. -/
def controlFaults (state : State) : List CompileError :=
  state.control.names.flatMap fun field =>
    faultUnless (field ∈ Signal.layout.map Signal.name) (.schemaViolation state.name field)

end State

namespace Program

/-- The names that occurred earlier in the program, each time they are repeated. -/
def repeated (names : List String) : List String :=
  (names.zipIdx.filter fun entry => entry.1 ∈ names.take entry.2).map (·.1)

/-- The faults of the list of names. -/
def nameFaults (names : List String) : List CompileError :=
  faultUnless (names ≠ []) .emptyProgram ++
    faultUnless (names.length ≤ StateIndex.limit) (.tooManyStates names.length StateIndex.limit) ++
    (repeated names).map .duplicateState

/-- All faults of a program, the one that counts first. -/
def faults (schema : Schema) (program : Program) : List CompileError :=
  nameFaults program.names ++
    program.states.flatMap (·.transitionFaults schema program.names) ++
    program.states.flatMap (·.controlFaults)

end Program

/-! ## Names -/

private theorem head?_repeated (seen before rest : List String)
    (same : ∀ name, name ∈ seen ↔ name ∈ before) :
    (((rest.zipIdx before.length).filter fun entry =>
        entry.1 ∈ (before ++ rest).take entry.2).map (·.1)).head? =
      StateIndex.firstRepeat? seen rest := by
  induction rest generalizing seen before with
  | nil => rfl
  | cons name rest ih =>
      have upTo : (before ++ name :: rest).take before.length = before := by simp
      rw [List.zipIdx_cons, List.filter_cons, StateIndex.firstRepeat?]
      simp only [upTo, decide_eq_true_eq, same name]
      by_cases earlier : name ∈ before
      · simp only [earlier, ↓reduceIte, List.map_cons, List.head?_cons]
      · have grown (other : String) : other ∈ name :: seen ↔ other ∈ before ++ [name] := by
          rw [List.mem_cons, List.mem_append, List.mem_singleton, same other, or_comm]
        have later := ih (name :: seen) (before ++ [name]) grown
        simp only [earlier, ↓reduceIte]
        simpa only [List.append_assoc, List.singleton_append, List.length_append,
          List.length_singleton] using later

theorem StateIndex.reports_build (names : List String) :
    Reports (Program.nameFaults names) (StateIndex.build names) := by
  have first := head?_repeated [] [] names (fun _ => Iff.rfl)
  simp only [List.nil_append, List.length_nil] at first
  change (Program.repeated names).head? = _ at first
  unfold StateIndex.build Program.nameFaults
  split
  · rename_i empty
    simp [Reports, faultUnless, empty]
  · rename_i nonempty
    split
    · rename_i bounded
      split
      · rename_i name found
        rw [found] at first
        simp [Reports, faultUnless, nonempty, bounded, first]
      · rename_i fresh
        rw [fresh, List.head?_eq_none_iff] at first
        simp [Reports, faultUnless, nonempty, bounded, first]
    · rename_i unbounded
      simp [Reports, faultUnless, nonempty, unbounded]

/-! ## Transitions -/

namespace State

theorem reports_targetCode (state : State) (index : StateIndex) (target : String) :
    Reports (faultUnless (target ∈ index.names) (.unknownState state.name target))
      (state.targetCode index target) := by
  unfold targetCode
  cases found : index.code? target with
  | none => simp [Reports, faultUnless, index.code?_eq_none_iff.mp found]
  | some code =>
      have named := index.code?_eq_some_iff.mp found
      simp [Reports, List.mem_of_getElem? named]

theorem reports_opcodeIndex (state : State) (schema : Schema) (symbol : String) :
    Reports (faultUnless (symbol ∈ schema.opcodes.map (·.symbol))
        (.unknownOpcode state.name symbol))
      (state.opcodeIndex schema symbol) := by
  unfold opcodeIndex
  cases found : schema.indexOf? symbol with
  | none =>
      have absent := schema.indexOf?_eq_none_iff.mp found
      simp only [Reports, faultUnless, absent, ↓reduceIte, List.head?_cons]
  | some position =>
      have named := schema.indexOf?_eq_some_iff.mp found
      rw [← List.getElem?_map] at named
      simp only [Reports, faultUnless_eq_nil_iff]
      exact List.mem_of_getElem? named

theorem reports_opcodeFilter (state : State) (schema : Schema) (listed : Option (List String)) :
    Reports ((listed.getD []).flatMap fun symbol =>
        faultUnless (symbol ∈ schema.opcodes.map (·.symbol)) (.unknownOpcode state.name symbol))
      (state.opcodeFilter schema listed) := by
  cases listed with
  | none => exact Reports.pure none
  | some symbols =>
      exact (Reports.mapM fun symbol _ => reports_opcodeIndex state schema symbol).map some

theorem reports_rule (state : State) (schema : Schema) (index : StateIndex) (clause : Clause) :
    Reports (clause.faults schema index.names state.name) (state.rule schema index clause) := by
  refine (reports_targetCode state index clause.target).bind fun target _ => ?_
  exact (reports_opcodeFilter state schema clause.opcodes).map _

/-- A guarded state is the last target of its own transition. -/
theorem reports_table (state : State) (schema : Schema) (index : StateIndex) :
    Reports (state.tableFaults schema index.names) (state.table schema index) := by
  unfold table tableFaults transitionFaults ownFaults
  cases state.next with
  | none => exact Reports.error _
  | some transition =>
      cases transition with
      | always target =>
          rw [List.append_nil]
          exact (reports_targetCode state index target).map _
      | guarded clauses =>
          have clausewise := Reports.mapM fun (clause : Clause) (_ : clause ∈ clauses) =>
            reports_rule state schema index clause
          exact clausewise.bind fun rules _ =>
            (reports_targetCode state index state.name).map fun own =>
              DecisionTable.ofRules schema.opcodes.length own rules

/-- A state of the list of names has no faults but those of its transition. -/
theorem tableFaults_of_mem (schema : Schema) {names : List String} {state : State}
    (declared : state.name ∈ names) :
    state.tableFaults schema names = state.transitionFaults schema names := by
  have known : state.ownFaults names = [] := by
    unfold ownFaults
    split
    · exact faultUnless_eq_nil_iff.mpr declared
    · rfl
  rw [tableFaults, known, List.append_nil]

end State

theorem reports_resolve (schema : Schema) (index : StateIndex) (states : List State) :
    Reports (states.flatMap (·.tableFaults schema index.names)) (resolve schema index states) :=
  Reports.mapM fun state _ => state.reports_table schema index

/-! ## Control records -/

private theorem ofName?_eq_none_iff (field : String) :
    Signal.ofName? field = none ↔ field ∉ Signal.layout.map Signal.name := by
  simp only [Signal.ofName?, List.find?_eq_none, beq_iff_eq, List.mem_map, not_exists, not_and]

private theorem head?_unknownFields (names : List String) (state : String) :
    (names.flatMap fun field =>
        faultUnless (field ∈ Signal.layout.map Signal.name) (.schemaViolation state field)).head? =
      (names.find? fun name => (Signal.ofName? name).isNone).map (.schemaViolation state) := by
  induction names with
  | nil => rfl
  | cons name rest ih =>
      rw [List.flatMap_cons, List.find?_cons, List.head?_append, ih]
      cases named : Signal.ofName? name with
      | none => simp [faultUnless, (ofName?_eq_none_iff name).mp named]
      | some s =>
          have known : name ∈ Signal.layout.map Signal.name := by
            rw [← Signal.ofName?_eq_some_iff.mp named]
            exact List.mem_map_of_mem s.mem_layout
          rw [faultUnless, if_pos known]
          rfl

theorem State.reports_word (state : State) (defaults : Assignment) :
    Reports state.controlFaults (state.control.word defaults state.name) := by
  refine Reports.map _ ?_
  have first := head?_unknownFields state.control.names state.name
  unfold State.controlFaults Record.assignment
  cases found : state.control.unknownName? with
  | none =>
      rw [Record.unknownName?] at found
      rw [found, Option.map_none, List.head?_eq_none_iff] at first
      exact first
  | some field =>
      rw [Record.unknownName?] at found
      rw [found] at first
      exact first

/-! ## Programs -/

/-- Compiling tells the first of a program's faults. -/
theorem reports_compile (schema : Schema) (program : Program) :
    Reports (program.faults schema) (compile schema program) := by
  unfold compile Program.faults
  rw [List.append_assoc]
  refine (StateIndex.reports_build program.names).bind fun index built => ?_
  have same : index.names = program.names := StateIndex.names_of_build built
  have plain : ∀ state ∈ program.states,
      state.tableFaults schema program.names = state.transitionFaults schema program.names :=
    fun state member => State.tableFaults_of_mem schema (List.mem_map_of_mem member)
  have resolved := reports_resolve schema index program.states
  rw [same, List.flatMap_congr plain] at resolved
  refine resolved.bind fun tables _ => ?_
  exact (Reports.mapM fun state _ => state.reports_word schema.defaults).map _

/-- The names that a state's transition leads to. -/
def State.targets (state : State) : List String :=
  match state.next with
  | none => []
  | some (.always target) => [target]
  | some (.guarded clauses) => clauses.map (·.target)

/-- The symbols that the clauses of a state list. -/
def State.symbols (state : State) : List String :=
  match state.next with
  | some (.guarded clauses) => clauses.flatMap (·.opcodes.getD [])
  | _ => []

theorem Clause.faults_congr {first second : Schema} {clause : Clause}
    (same : ∀ symbol ∈ clause.opcodes.getD [],
      symbol ∈ second.opcodes.map (·.symbol) ↔ symbol ∈ first.opcodes.map (·.symbol))
    (names : List String) (state : String) :
    clause.faults second names state = clause.faults first names state := by
  unfold Clause.faults
  rw [List.flatMap_congr fun symbol listed => faultUnless_congr (same symbol listed) _]

/-- The faults of a transition depend on which of the listed symbols there are, and on nothing else
of the schema. -/
theorem State.transitionFaults_congr {first second : Schema} {state : State}
    (same : ∀ symbol ∈ state.symbols,
      symbol ∈ second.opcodes.map (·.symbol) ↔ symbol ∈ first.opcodes.map (·.symbol))
    (names : List String) :
    state.transitionFaults second names = state.transitionFaults first names := by
  unfold State.symbols at same
  unfold State.transitionFaults
  cases next : state.next with
  | none => rfl
  | some transition =>
      cases transition with
      | always target => rfl
      | guarded clauses =>
          simp only [next] at same
          refine List.flatMap_congr fun clause member => Clause.faults_congr ?_ names state.name
          exact fun symbol listed => same symbol (List.mem_flatMap_of_mem member listed)

/-- A program that can be compiled: its names make an index, and its transitions and records use
only names that exist. -/
structure Program.WellFormed (schema : Schema) (program : Program) : Prop where
  nonempty : 1 ≤ program.size
  bounded : program.size ≤ 256
  distinct : program.names.Nodup
  resolved : ∀ state ∈ program.states, state.next ≠ none
  targets : ∀ state ∈ program.states, ∀ target ∈ state.targets, target ∈ program.names
  opcodes : ∀ state ∈ program.states, ∀ symbol ∈ state.symbols,
    symbol ∈ schema.opcodes.map (·.symbol)
  fields : ∀ state ∈ program.states, ∀ field ∈ state.control.names, ∃ s : Signal, s.name = field

private theorem repeated_eq_nil_iff (names : List String) :
    Program.repeated names = [] ↔ names.Nodup := by
  constructor
  · intro fresh
    have first := head?_repeated [] [] names (fun _ => Iff.rfl)
    simp only [List.nil_append, List.length_nil] at first
    change (Program.repeated names).head? = _ at first
    rw [fresh, List.head?_nil] at first
    exact (StateIndex.firstRepeat?_eq_none first.symm).1
  · intro distinct
    rw [Program.repeated, List.map_eq_nil_iff, List.filter_eq_nil_iff]
    intro entry member
    obtain ⟨name, position⟩ := entry
    have here : names[position]? = some name := List.mk_mem_zipIdx_iff_getElem?.mp member
    have inside := (List.getElem?_eq_some_iff.mp here).1
    rw [decide_eq_true_eq]
    intro earlier
    obtain ⟨i, located⟩ := List.getElem?_of_mem earlier
    have before : i < position := by
      have bound := (List.getElem?_eq_some_iff.mp located).1
      rw [List.length_take] at bound
      omega
    rw [List.getElem?_take_of_lt before] at located
    have equal := (List.getElem?_inj (by omega) distinct).mp (located.trans here.symm)
    omega

private theorem nameFaults_eq_nil_iff (names : List String) :
    Program.nameFaults names = [] ↔ names ≠ [] ∧ names.length ≤ 256 ∧ names.Nodup := by
  simp only [Program.nameFaults, List.append_eq_nil_iff, faultUnless_eq_nil_iff,
    List.map_eq_nil_iff, repeated_eq_nil_iff, and_assoc]
  exact Iff.rfl

/-- Names make an index exactly if there are some, no more than codes, and no two alike. -/
theorem StateIndex.exists_build_iff (names : List String) :
    (∃ index, StateIndex.build names = .ok index) ↔
      names ≠ [] ∧ names.length ≤ 256 ∧ names.Nodup :=
  (StateIndex.reports_build names).exists_ok_iff.trans (nameFaults_eq_nil_iff names)

theorem State.transitionFaults_eq_nil_iff (schema : Schema) (names : List String)
    (state : State) :
    state.transitionFaults schema names = [] ↔
      state.next ≠ none ∧ (∀ target ∈ state.targets, target ∈ names) ∧
        ∀ symbol ∈ state.symbols, symbol ∈ schema.opcodes.map (·.symbol) := by
  unfold State.transitionFaults State.targets State.symbols
  cases state.next with
  | none => simp
  | some transition =>
      cases transition with
      | always target => simp
      | guarded clauses =>
          simp only [Clause.faults, List.flatMap_eq_nil_iff, List.append_eq_nil_iff,
            faultUnless_eq_nil_iff, List.mem_map, List.mem_flatMap, forall_exists_index, and_imp,
            ne_eq, reduceCtorEq, not_false_eq_true, true_and, forall_and]
          constructor
          · intro fresh
            obtain ⟨targets, symbols⟩ := fresh
            refine ⟨?_, fun symbol clause member => symbols clause member symbol⟩
            intro target clause member same
            exact same ▸ targets clause member
          · intro formed
            obtain ⟨targets, symbols⟩ := formed
            exact ⟨fun clause member => targets _ clause member rfl,
              fun clause member symbol => symbols symbol clause member⟩

private theorem controlFaults_eq_nil_iff (state : State) :
    state.controlFaults = [] ↔ ∀ field ∈ state.control.names, ∃ s : Signal, s.name = field := by
  simp only [State.controlFaults, List.flatMap_eq_nil_iff, faultUnless_eq_nil_iff, List.mem_map,
    Signal.mem_layout, true_and]

theorem Program.faults_eq_nil_iff (schema : Schema) (program : Program) :
    program.faults schema = [] ↔ program.WellFormed schema := by
  have some : program.names ≠ [] ↔ 1 ≤ program.size := by
    rw [Ne, ← List.length_eq_zero_iff, Program.names, List.length_map]
    exact Nat.pos_iff_ne_zero.symm
  have count : program.names.length = program.size := List.length_map ..
  simp only [Program.faults, List.append_eq_nil_iff, nameFaults_eq_nil_iff,
    List.flatMap_eq_nil_iff, State.transitionFaults_eq_nil_iff, controlFaults_eq_nil_iff, some,
    count]
  constructor
  · intro fresh
    obtain ⟨⟨⟨nonempty, bounded, distinct⟩, transitions⟩, fields⟩ := fresh
    exact ⟨nonempty, bounded, distinct, fun state member => (transitions state member).1,
      fun state member => (transitions state member).2.1,
      fun state member => (transitions state member).2.2, fields⟩
  · intro formed
    exact ⟨⟨⟨formed.nonempty, formed.bounded, formed.distinct⟩, fun state member =>
      ⟨formed.resolved state member, formed.targets state member, formed.opcodes state member⟩⟩,
      formed.fields⟩

/-- Exactly the well-formed programs compile; of any other, compiling tells the fault that comes
first in the order of the faults. -/
theorem compile_tells_first_fault (schema : Schema) (program : Program) :
    ((∃ m, compile schema program = .ok m) ↔ program.WellFormed schema) ∧
      ∀ fault, compile schema program = .error fault ↔
        (program.faults schema).head? = some fault := by
  have reported := reports_compile schema program
  exact ⟨reported.exists_ok_iff.trans (program.faults_eq_nil_iff schema),
    reported.eq_error_iff⟩

/-! ## A small program

A pulse generator: it idles until the instruction `GO` finds the zero flag set, pulses for one step
and idles again; a negative result stops it for good. Codes are not positions, one default and one
level are too wide for their signals, and two bits of state leave one code without a state.
-/
namespace Pulse

def schema : Schema where
  geometry := ⟨2, 3⟩
  opcodes := [⟨"GO", 5⟩, ⟨"STAY", 2⟩]
  defaults := Assignment.zero.set .bSelect 7
  valid := by decide
  symbols_distinct := by decide
  codes_distinct := by decide
  codes_fit := by decide

def idle : State :=
  (State.named "IDLE").branch
    [(Clause.goto "PULSE").forOpcodes ["GO"] |>.whenZero true,
      (Clause.goto "STOP").whenNegative true]

def pulse : State := (State.named "PULSE").select "alu_op" 37 |>.strobe "write" |>.goto "IDLE"

def stop : State := (State.named "STOP").branch []

def program : Program := ⟨[idle, pulse, stop]⟩

theorem compiles : ∃ m, compile schema program = .ok m :=
  (reports_compile schema program).exists_ok_iff.mpr (by decide)

end Pulse

end ControlStore
