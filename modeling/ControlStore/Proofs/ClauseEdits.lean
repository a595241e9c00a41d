import ControlStore.Proofs.TransitionEdits

set_option autoImplicit false

/-!
Edits of a list of clauses. The first clause that accepts decides, so what an edit changes is told
from who accepts what: neighbours that never accept together can be swapped, a clause that never
comes first can be left out, and a new clause changes only what it is the first to accept.
-/
namespace ControlStore

/-! ### Who decides -/

namespace Clause

/-- Whether a clause decides when others stand before it: it accepts and none of them does. -/
def decidesAfter (clause : Clause) (before : List Clause) (symbol : String) (zero negative : Bool) :
    Bool :=
  clause.accepts symbol zero negative && !before.any (·.accepts symbol zero negative)

variable (own : String) {clause first second : Clause} {before after : List Clause}
  {symbol : String} {zero negative : Bool}

/-- One more clause decides where it is the first to accept, and nowhere else. -/
theorem firstTarget_insert :
    firstTarget own (before ++ clause :: after) symbol zero negative =
      if clause.decidesAfter before symbol zero negative then clause.target
      else firstTarget own (before ++ after) symbol zero negative := by
  induction before with
  | nil => simp [decidesAfter]
  | cons earlier before ih =>
      rw [List.cons_append, List.cons_append, firstTarget_cons, firstTarget_cons, ih]
      cases accepted : earlier.accepts symbol zero negative <;> simp [decidesAfter, accepted]

/-- A clause that others always forestall can be left out. -/
theorem firstTarget_erase (forestalled : clause.accepts symbol zero negative = true →
      ∃ earlier ∈ before, earlier.accepts symbol zero negative = true) :
    firstTarget own (before ++ clause :: after) symbol zero negative =
      firstTarget own (before ++ after) symbol zero negative := by
  have never : clause.decidesAfter before symbol zero negative = false := by
    simp only [decidesAfter, Bool.and_eq_false_imp, Bool.not_eq_false', List.any_eq_true]
    exact forestalled
  rw [firstTarget_insert, never, if_neg Bool.false_ne_true]

theorem firstTarget_swap (apart : first.target = second.target ∨
      ¬ (first.accepts symbol zero negative = true ∧ second.accepts symbol zero negative = true)) :
    firstTarget own (before ++ second :: first :: after) symbol zero negative =
      firstTarget own (before ++ first :: second :: after) symbol zero negative := by
  rw [firstTarget_append, firstTarget_append]
  congr 1
  simp only [firstTarget_cons]
  split
  · rename_i later
    split
    · rename_i sooner
      exact (apart.resolve_right (not_not.mpr ⟨sooner, later⟩)).symm
    · rfl
  · rfl

/-- A list of symbols means the set of its symbols. -/
theorem accepts_forOpcodes {symbols listed : List String} (opcodes : clause.opcodes = some listed)
    (same : ∀ symbol, symbol ∈ symbols ↔ symbol ∈ listed) :
    (clause.forOpcodes symbols).accepts symbol zero negative =
      clause.accepts symbol zero negative := by
  have listing : symbols.contains symbol = listed.contains symbol := by
    rw [Bool.eq_iff_iff, List.contains_iff_mem, List.contains_iff_mem, same]
  simp only [accepts, acceptsSymbol, acceptsFlags, forOpcodes, opcodes, Option.all_some, listing]

end Clause

/-! ### Known names -/

namespace Clause

variable (own : String) {clause : Clause}

/-- A clause whose target and opcodes exist. -/
structure Known (schema : Schema) (names : List String) (clause : Clause) : Prop where
  target : clause.target ∈ names
  opcodes : ∀ symbol ∈ clause.opcodes.getD [], symbol ∈ schema.opcodes.map (·.symbol)

theorem faults_eq_nil_iff (schema : Schema) (names : List String) (clause : Clause) :
    clause.faults schema names own = [] ↔ clause.Known schema names := by
  simp only [faults, List.append_eq_nil_iff, List.flatMap_eq_nil_iff, faultUnless_eq_nil_iff]
  exact ⟨fun known => ⟨known.1, known.2⟩, fun known => ⟨known.target, known.opcodes⟩⟩

theorem Known.forOpcodes {schema : Schema} {names symbols listed : List String}
    (known : clause.Known schema names) (opcodes : clause.opcodes = some listed)
    (same : ∀ symbol, symbol ∈ symbols ↔ symbol ∈ listed) :
    (clause.forOpcodes symbols).Known schema names := by
  have all := known.opcodes
  rw [opcodes, Option.getD_some] at all
  exact ⟨known.target, fun symbol member => all symbol ((same symbol).mp member)⟩

end Clause

/-! ### Cells of compiled programs -/

/-- The code that a compiled program holds for a state, an opcode's position and the flags. -/
def Microcode.cell? (m : Microcode) (i position : Nat) (zero negative : Bool) : Option UInt8 :=
  (m.tables[i]?).bind (·.get? position zero negative)

/-- Compiled programs that differ at most in the cells that one more clause of a state decides. -/
structure Microcode.GainsClause (schema : Schema) (i : Nat) (before : List Clause) (clause : Clause)
    (m n : Microcode) : Prop where
  index_eq : n.index = m.index
  words_eq : n.words = m.words
  tables_size : n.tables.size = m.tables.size
  changed : ∀ j position zero negative,
    n.cell? j position zero negative ≠ m.cell? j position zero negative →
      j = i ∧ ∃ opcode, schema.opcodes[position]? = some opcode ∧
        clause.decidesAfter before opcode.symbol zero negative
  decided : ∀ position opcode zero negative, schema.opcodes[position]? = some opcode →
    clause.decidesAfter before opcode.symbol zero negative →
      n.cell? i position zero negative = m.codeOf? clause.target

namespace Compiled

variable {schema : Schema} {program : Program} {m : Microcode}

/-- Every cell is the code of a successor. -/
theorem cell?_eq (compiled : Compiled schema program m) (i position : Nat) (zero negative : Bool) :
    m.cell? i position zero negative =
      (program.states[i]?).bind fun state => (schema.opcodes[position]?).bind fun opcode =>
        (state.successor? opcode.symbol zero negative).bind m.codeOf? := by
  rw [Microcode.cell?]
  cases located : program.states[i]? with
  | none =>
      rw [compiled.getElem?_tables, located]
      rfl
  | some state =>
      obtain ⟨table, held, resolved⟩ := compiled.table_at i state located
      have tabled := State.tabled_of_table resolved
      rw [held, Option.bind_some, Option.bind_some]
      cases placed : schema.opcodes[position]? with
      | none => exact tabled.past position (List.getElem?_eq_none_iff.mp placed) zero negative
      | some opcode =>
          obtain ⟨name, code, follows, coded, here⟩ :=
            tabled.declared position opcode placed zero negative
          rw [Option.bind_some, follows, Option.bind_some, here]
          exact coded.symm

variable {n : Microcode} {i : Nat} {state : State} {clauses : List Clause}

/-- Other clauses in one state leave the cells of all others as they were. -/
theorem cell?_branch_of_ne (compiled : Compiled schema program m)
    (other : Compiled schema (program.modify i (·.branch clauses)) n) {j : Nat} (apart : j ≠ i)
    (position : Nat) (zero negative : Bool) :
    n.cell? j position zero negative = m.cell? j position zero negative := by
  have edited := program.editedAt_branch i clauses
  have tables : n.tables[j]? = m.tables[j]? := by
    rw [other.getElem?_tables, compiled.getElem?_tables, edited.elsewhere j apart,
      compiled.index_eq_of_names other edited.names_eq]
  rw [Microcode.cell?, Microcode.cell?, tables]

/-- One more clause changes the cells that it is the first to accept, and no other of its state. -/
theorem cell?_insert {before after : List Clause} {clause : Clause}
    (compiled : Compiled schema program m)
    (other : Compiled schema (program.modify i (·.branch (before ++ clause :: after))) n)
    (located : program.states[i]? = some state)
    (guarded : state.next = some (.guarded (before ++ after))) {position : Nat} {opcode : Opcode}
    (placed : schema.opcodes[position]? = some opcode) (zero negative : Bool) :
    n.cell? i position zero negative =
      if clause.decidesAfter before opcode.symbol zero negative then m.codeOf? clause.target
      else m.cell? i position zero negative := by
  have edited := program.editedAt_branch i (before ++ clause :: after)
  have codes : n.codeOf? = m.codeOf? := by
    funext name
    rw [Microcode.codeOf?, Microcode.codeOf?, compiled.index_eq_of_names other edited.names_eq]
  rw [other.cell?_eq, compiled.cell?_eq, Program.getElem?_modify_self located, located, placed,
    codes]
  simp only [Option.bind_some, State.successor?_branch, State.successor?_of_guarded guarded,
    Clause.firstTarget_insert]
  split <;> rfl

/-- A table has no cells past the opcodes. -/
theorem cell?_past (compiled : Compiled schema program m) (i : Nat) {position : Nat}
    (past : schema.opcodes[position]? = none) (zero negative : Bool) :
    m.cell? i position zero negative = none := by
  rw [compiled.cell?_eq, past]
  cases program.states[i]? <;> rfl

end Compiled

/-! ### Programs with other clauses in one state -/

section Edits

variable {schema : Schema} {program : Program} {m : Microcode} {i : Nat} {state : State}
  {clauses : List Clause}

/-- The clauses of a program that compiles are known. -/
theorem known_of_compile (success : compile schema program = .ok m)
    (located : program.states[i]? = some state) (guarded : state.next = some (.guarded clauses)) :
    ∀ clause ∈ clauses, clause.Known schema program.names := by
  have faultless := (reports_compile schema program).exists_ok_iff.mp ⟨m, success⟩
  simp only [Program.faults, List.append_eq_nil_iff, List.flatMap_eq_nil_iff] at faultless
  have transition := faultless.1.2 state (List.mem_of_getElem? located)
  rw [State.transitionFaults_of_guarded guarded, List.flatMap_eq_nil_iff] at transition
  exact fun clause member => (clause.faults_eq_nil_iff _ _ _).mp (transition clause member)

/-- Known clauses with the same first targets compile to the same. -/
theorem compile_clauses (success : compile schema program = .ok m)
    (located : program.states[i]? = some state) (guarded : state.next = some (.guarded clauses))
    {edited : List Clause} (known : ∀ clause ∈ edited, clause.Known schema program.names)
    (same : ∀ opcode ∈ schema.opcodes, ∀ zero negative,
      Clause.firstTarget state.name edited opcode.symbol zero negative =
        Clause.firstTarget state.name clauses opcode.symbol zero negative) :
    compile schema (program.modify i (·.branch edited)) = .ok m := by
  have faultless {listed : List Clause}
      (known : ∀ clause ∈ listed, clause.Known schema program.names) :
      listed.flatMap (·.faults schema program.names state.name) = [] :=
    List.flatMap_eq_nil_iff.mpr fun clause member =>
      (clause.faults_eq_nil_iff _ _ _).mpr (known clause member)
  rw [compile_branch located ?_ ?_, success]
  · rw [State.transitionFaults_branch, State.transitionFaults_of_guarded guarded, faultless known,
      faultless (known_of_compile success located guarded)]
  · intro opcode member zero negative
    rw [State.successor?_branch, State.successor?_of_guarded guarded, same opcode member]

/-- A changed program has the old states but one, and the changed one. -/
theorem Program.mem_modify {program : Program} {change : State → State} {changed : State}
    (member : changed ∈ (program.modify i change).states) :
    changed ∈ program.states ∨
      ∃ state, program.states[i]? = some state ∧ changed = change state := by
  obtain ⟨j, located⟩ := List.getElem?_of_mem member
  by_cases here : j = i
  · subst here
    rw [modify, List.getElem?_modify_eq] at located
    obtain ⟨state, found, same⟩ := Option.map_eq_some_iff.mp located
    exact Or.inr ⟨state, found, same.symm⟩
  · rw [modify, List.getElem?_modify_ne change program.states (Ne.symm here)] at located
    exact Or.inl (List.mem_of_getElem? located)

/-- Whatever known clauses a state is given, the program still compiles. -/
theorem exists_compile_branch (success : compile schema program = .ok m) (i : Nat)
    (known : ∀ clause ∈ clauses, clause.Known schema program.names) :
    ∃ n, compile schema (program.modify i (·.branch clauses)) = .ok n := by
  have faultless := (reports_compile schema program).exists_ok_iff.mp ⟨m, success⟩
  have edited := program.editedAt_branch i clauses
  refine (reports_compile _ _).exists_ok_iff.mpr ?_
  simp only [Program.faults, List.append_eq_nil_iff, List.flatMap_eq_nil_iff, edited.names_eq]
    at faultless ⊢
  obtain ⟨⟨names, transitions⟩, fields⟩ := faultless
  refine ⟨⟨names, fun changed member => ?_⟩, fun changed member => ?_⟩
  · rcases Program.mem_modify member with old | ⟨state, -, rfl⟩
    · exact transitions changed old
    · rw [State.transitionFaults_branch, List.flatMap_eq_nil_iff]
      exact fun clause listed => (clause.faults_eq_nil_iff _ _ _).mpr (known clause listed)
  · rcases Program.mem_modify member with old | ⟨state, located, rfl⟩
    · exact fields changed old
    · exact fields state (List.mem_of_getElem? located)

section OneEdit

variable {before after : List Clause} {clause first second : Clause}

theorem compile_swap_clauses (success : compile schema program = .ok m)
    (located : program.states[i]? = some state)
    (guarded : state.next = some (.guarded (before ++ first :: second :: after)))
    (apart : first.target = second.target ∨ ∀ opcode ∈ schema.opcodes, ∀ zero negative,
      ¬ (first.accepts opcode.symbol zero negative ∧
        second.accepts opcode.symbol zero negative)) :
    compile schema (program.modify i (·.branch (before ++ second :: first :: after))) = .ok m := by
  have swapped := (List.Perm.swap first second after).append_left before
  refine compile_clauses success located guarded ?_ fun opcode member zero negative => ?_
  · intro clause member
    exact known_of_compile success located guarded clause (swapped.mem_iff.mp member)
  · exact Clause.firstTarget_swap _
      (apart.imp_right fun never => never opcode member zero negative)

theorem compile_erase_clause (success : compile schema program = .ok m)
    (located : program.states[i]? = some state)
    (guarded : state.next = some (.guarded (before ++ clause :: after)))
    (forestalled : ∀ opcode ∈ schema.opcodes, ∀ zero negative,
      clause.accepts opcode.symbol zero negative →
        ∃ earlier ∈ before, earlier.accepts opcode.symbol zero negative) :
    compile schema (program.modify i (·.branch (before ++ after))) = .ok m := by
  have fewer := (List.sublist_cons_self clause after).append_left before
  refine compile_clauses success located guarded ?_ fun opcode member zero negative => ?_
  · intro clause member
    exact known_of_compile success located guarded clause (fewer.subset member)
  · exact (Clause.firstTarget_erase _ (forestalled opcode member zero negative)).symm

theorem compile_relist_clause (success : compile schema program = .ok m)
    (located : program.states[i]? = some state)
    (guarded : state.next = some (.guarded (before ++ clause :: after)))
    {listed symbols : List String} (opcodes : clause.opcodes = some listed)
    (same : ∀ symbol, symbol ∈ symbols ↔ symbol ∈ listed) :
    compile schema (program.modify i (·.branch (before ++ clause.forOpcodes symbols :: after))) =
      .ok m := by
  have known := known_of_compile success located guarded
  rw [List.forall_mem_append, List.forall_mem_cons] at known
  obtain ⟨knownBefore, knownClause, knownAfter⟩ := known
  refine compile_clauses success located guarded ?_ fun opcode member zero negative => ?_
  · rw [List.forall_mem_append, List.forall_mem_cons]
    exact ⟨knownBefore, knownClause.forOpcodes opcodes same, knownAfter⟩
  · rw [Clause.firstTarget_append, Clause.firstTarget_append, Clause.firstTarget_cons,
      Clause.firstTarget_cons, Clause.accepts_forOpcodes opcodes same]
    rfl

theorem compile_insert_clause (success : compile schema program = .ok m)
    (located : program.states[i]? = some state)
    (guarded : state.next = some (.guarded (before ++ after)))
    (known : clause.Known schema program.names) : ∃ n,
    compile schema (program.modify i (·.branch (before ++ clause :: after))) = .ok n ∧
      m.GainsClause schema i before clause n := by
  have others := known_of_compile success located guarded
  rw [List.forall_mem_append] at others
  obtain ⟨n, also⟩ := exists_compile_branch success i
    (List.forall_mem_append.mpr ⟨others.1, List.forall_mem_cons.mpr ⟨known, others.2⟩⟩)
  have compiled := compiled_of_compile success
  have other := compiled_of_compile also
  have edited := program.editedAt_branch i (before ++ clause :: after)
  refine ⟨n, also, ⟨compiled.index_eq_of_names other edited.names_eq,
    compiled.words_eq_of_kept other edited.kept, ?_, ?_, ?_⟩⟩
  · rw [other.tables_size, compiled.tables_size]
    exact List.length_modify ..
  · intro j position zero negative changed
    have here : j = i := by
      by_contra apart
      exact changed (compiled.cell?_branch_of_ne other apart position zero negative)
    subst here
    cases placed : schema.opcodes[position]? with
    | none =>
        rw [other.cell?_past j placed, compiled.cell?_past j placed] at changed
        exact absurd rfl changed
    | some opcode =>
        rw [compiled.cell?_insert other located guarded placed] at changed
        split at changed
        · rename_i decides
          exact ⟨rfl, opcode, rfl, decides⟩
        · exact absurd rfl changed
  · intro position opcode zero negative placed decides
    rw [compiled.cell?_insert other located guarded placed, if_pos decides]

end OneEdit

end Edits

/-- Clauses can be edited safely. In a state of a program that compiles, two neighbours that have
the same target or never accept together can be swapped, a clause that accepts nothing that the
clauses before it do not accept can be left out, and the opcodes that a clause lists can be
reordered and repeated: the result is the same as a whole. One more clause with a known target and
known opcodes, at any place, changes no cell but those that it accepts and no clause before it does,
and these hold the code of its target. -/
theorem compile_clause_edits {schema : Schema} {program : Program} {m : Microcode}
    (success : compile schema program = .ok m) {i : Nat} {state : State}
    (located : program.states[i]? = some state) (before after : List Clause) :
    (∀ first second : Clause,
      state.next = some (.guarded (before ++ first :: second :: after)) →
      (first.target = second.target ∨ ∀ opcode ∈ schema.opcodes, ∀ zero negative,
        ¬ (first.accepts opcode.symbol zero negative ∧
          second.accepts opcode.symbol zero negative)) →
      compile schema (program.modify i (·.branch (before ++ second :: first :: after))) = .ok m) ∧
    (∀ clause : Clause, state.next = some (.guarded (before ++ clause :: after)) →
      (∀ opcode ∈ schema.opcodes, ∀ zero negative, clause.accepts opcode.symbol zero negative →
        ∃ earlier ∈ before, earlier.accepts opcode.symbol zero negative) →
      compile schema (program.modify i (·.branch (before ++ after))) = .ok m) ∧
    (∀ clause : Clause, state.next = some (.guarded (before ++ after)) →
      clause.Known schema program.names →
      ∃ n, compile schema (program.modify i (·.branch (before ++ clause :: after))) = .ok n ∧
        m.GainsClause schema i before clause n) ∧
    ∀ (clause : Clause) (listed symbols : List String),
      state.next = some (.guarded (before ++ clause :: after)) → clause.opcodes = some listed →
      (∀ symbol, symbol ∈ symbols ↔ symbol ∈ listed) →
      compile schema (program.modify i (·.branch (before ++ clause.forOpcodes symbols :: after))) =
        .ok m :=
  ⟨fun _ _ guarded apart => compile_swap_clauses success located guarded apart,
    fun _ guarded forestalled => compile_erase_clause success located guarded forestalled,
    fun _ guarded known => compile_insert_clause success located guarded known,
    fun _ _ _ guarded opcodes same => compile_relist_clause success located guarded opcodes same⟩

namespace Pulse

def start : Clause := (Clause.goto "PULSE").forOpcodes ["GO"]

def halt : Clause := (Clause.goto "STOP").forOpcodes ["STAY"] |>.whenNegative true

/-- A clause that `start` and `halt` together forestall. -/
def wait : Clause := (Clause.goto "IDLE").forOpcodes ["GO", "STAY"] |>.whenNegative true

/-- The pulse generator with other clauses while it idles. -/
def gated : Program := ⟨[idle.branch [start, halt, wait], pulse, stop]⟩

end Pulse

/-- The gated pulse generator with its first clauses swapped, without its last, with the opcodes of
its last in another order, and with a stop that comes before all but the start. -/
theorem compile_clause_edits_gated : ∃ m n, compile Pulse.schema Pulse.gated = .ok m ∧
    compile Pulse.schema (Pulse.gated.modify 0 (·.branch [Pulse.halt, Pulse.start, Pulse.wait])) =
      .ok m ∧
    compile Pulse.schema (Pulse.gated.modify 0 (·.branch [Pulse.start, Pulse.halt])) = .ok m ∧
    compile Pulse.schema (Pulse.gated.modify 0
      (·.branch [Pulse.start, Pulse.halt, Pulse.wait.forOpcodes ["STAY", "GO", "STAY"]])) = .ok m ∧
    compile Pulse.schema (Pulse.gated.modify 0
      (·.branch [Pulse.start, Clause.goto "STOP", Pulse.halt, Pulse.wait])) = .ok n ∧
    n.cell? 0 1 true false = m.codeOf? "STOP" ∧ n.cell? 0 0 true true = m.cell? 0 0 true true := by
  obtain ⟨m, success⟩ : ∃ m, compile Pulse.schema Pulse.gated = .ok m :=
    (reports_compile _ _).exists_ok_iff.mpr (by decide)
  have located : Pulse.gated.states[0]? =
      some (Pulse.idle.branch [Pulse.start, Pulse.halt, Pulse.wait]) := rfl
  obtain ⟨n, also, gained⟩ := (compile_clause_edits success located [Pulse.start]
    [Pulse.halt, Pulse.wait]).2.2.1 (Clause.goto "STOP") rfl ⟨by decide, by decide⟩
  refine ⟨m, n, success, ?_, ?_, ?_, also, ?_, ?_⟩
  · exact (compile_clause_edits success located [] [Pulse.wait]).1 Pulse.start Pulse.halt rfl
      (Or.inr (by decide))
  · exact (compile_clause_edits success located [Pulse.start, Pulse.halt] []).2.1 Pulse.wait rfl
      (by decide)
  · exact (compile_clause_edits success located [Pulse.start, Pulse.halt] []).2.2.2 Pulse.wait
      ["GO", "STAY"] ["STAY", "GO", "STAY"] rfl rfl (by simp [or_comm])
  · exact gained.decided 1 ⟨"STAY", 2⟩ true false rfl (by decide)
  · by_contra changed
    obtain ⟨-, opcode, placed, decides⟩ := gained.changed 0 0 true true changed
    cases placed
    exact absurd decides (by decide)

end ControlStore
