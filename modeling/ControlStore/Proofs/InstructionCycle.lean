import ControlStore.Proofs.Compiled
import ControlStore.Proofs.OpcodeTable
import ControlStore.Proofs.ProgramFaults
import ControlStore.ReferenceCpu
import Mathlib.Data.List.Infix

set_option autoImplicit false

/-!
The instruction cycle of the built-in processor. Most of its guarded states stay where they are on an
instruction that they do not list, but no such instruction reaches them: the processor leaves every
state at once and is back in `FETCH_DECODE` after three other states at the latest, whatever the
flags and the instructions are.
-/
namespace ControlStore.ReferenceCpu

/-! ### Runs -/

/-- The runs of the processor: the states it was in, the last one first, and the instruction that it
holds. It may begin with any instruction and take another one only in `FETCH_DECODE`; the flags are
arbitrary in every step. -/
inductive Run (m : Microcode) : List String → String → Prop where
  | start {symbol : String} : symbol ∈ m.schema.opcodes.map (·.symbol) → Run m [init.name] symbol
  | fetch {visited : List String} {held symbol : String} : Run m (fetchDecode.name :: visited) held →
      symbol ∈ m.schema.opcodes.map (·.symbol) → Run m (fetchDecode.name :: visited) symbol
  | step {state next held : String} {visited : List String} {zero negative : Bool} :
      Run m (state :: visited) held → m.next? state held zero negative = some next →
      Run m (next :: state :: visited) held

/-- How many states came last without `FETCH_DECODE`. -/
def away : List String → Nat
  | [] => 0
  | state :: visited => if state = fetchDecode.name then 0 else away visited + 1

theorem length_le_away {window visited : List String} (last : window <+: visited)
    (without : fetchDecode.name ∉ window) : window.length ≤ away visited := by
  induction visited generalizing window with
  | nil =>
      rw [List.prefix_nil.mp last]
      exact Nat.zero_le _
  | cons state visited ih =>
      cases window with
      | nil => exact Nat.zero_le _
      | cons first window =>
          obtain ⟨rfl, behind⟩ := List.cons_prefix_cons.mp last
          rw [List.mem_cons, not_or] at without
          rw [away, if_neg (Ne.symm without.1), List.length_cons]
          exact Nat.succ_le_succ (ih behind without.2)

/-! ### The microprogram -/

/-- Whether an instruction takes the processor from a state back to `FETCH_DECODE` in at most so many
moves, each to another state, whatever the flags are. -/
def returns (symbol : String) : Nat → String → Bool
  | 0, _ => false
  | moves + 1, state =>
      [false, true].all fun zero => [false, true].all fun negative =>
        (program.successor? state symbol zero negative).any fun next =>
          next != state && (next == fetchDecode.name || returns symbol moves next)

theorem exists_next_of_returns {symbol state : String} {moves : Nat}
    (back : returns symbol (moves + 1) state = true) (zero negative : Bool) :
    ∃ next, program.successor? state symbol zero negative = some next ∧ next ≠ state ∧
      (next = fetchDecode.name ∨ returns symbol moves next = true) := by
  have flag (value : Bool) : value ∈ [false, true] := by cases value <;> decide
  rw [returns, List.all_eq_true] at back
  have here := List.all_eq_true.mp (back zero (flag zero)) negative (flag negative)
  simpa only [Option.any_eq_true, Bool.and_eq_true, Bool.or_eq_true, bne_iff_ne, beq_iff_eq]
    using here

/-- From `FETCH_DECODE` every instruction leads over three states at most. -/
theorem returns_fetchDecode : ∀ instruction ∈ instructions,
    returns instruction.1 (3 + 1) fetchDecode.name = true := by decide +kernel

theorem returns_init : ∀ instruction ∈ instructions,
    returns instruction.1 (0 + 1) init.name = true := by decide +kernel

/-! ### The compiled microprogram -/

/-- The schema that the processor's instructions make. -/
def builtSchema : Schema where
  geometry := .standard
  opcodes := instructions.map Opcode.ofEntry
  defaults := Assignment.zero
  valid := by decide
  symbols_distinct := by decide +kernel
  codes_distinct := by decide +kernel
  codes_fit := by decide +kernel

theorem schema_eq : schema = .ok builtSchema :=
  Schema.build_eq_ok_iff.mpr ⟨rfl, rfl, rfl, by decide +kernel⟩

theorem compiles : ∃ m, compile builtSchema program = .ok m :=
  (reports_compile builtSchema program).exists_ok_iff.mpr (by decide +kernel)

section Run

variable {m : Microcode} {visited : List String} {held : String}

theorem mem_symbols_iff (compiled : Compiled builtSchema program m) {symbol : String} :
    symbol ∈ m.schema.opcodes.map (·.symbol) ↔ ∃ code, (symbol, code) ∈ instructions := by
  simp [compiled.schema_eq, builtSchema, Opcode.ofEntry]

/-- A run that keeps its pace: it went on to another state each time, was never away for more than
three states, and the instruction it holds will bring it back in time. -/
structure Paced (m : Microcode) (visited : List String) (held : String) : Prop where
  known : held ∈ m.schema.opcodes.map (·.symbol)
  moved : visited.IsChain (· ≠ ·)
  bounded : ∀ window, window <:+: visited → fetchDecode.name ∉ window → window.length ≤ 3
  due : ∃ state earlier moves, visited = state :: earlier ∧ returns held (moves + 1) state = true ∧
    away visited + moves ≤ 3

/-- With three moves left from `FETCH_DECODE`, every instruction of the processor is in time. -/
theorem due_fetchDecode (compiled : Compiled builtSchema program m) (visited : List String)
    (known : held ∈ m.schema.opcodes.map (·.symbol)) :
    ∃ state earlier moves, fetchDecode.name :: visited = state :: earlier ∧
      returns held (moves + 1) state = true ∧ away (fetchDecode.name :: visited) + moves ≤ 3 := by
  obtain ⟨code, listed⟩ := (mem_symbols_iff compiled).mp known
  have none : away (fetchDecode.name :: visited) = 0 := if_pos rfl
  refine ⟨fetchDecode.name, visited, 3, rfl, returns_fetchDecode (held, code) listed, ?_⟩
  rw [none, Nat.zero_add]

theorem paced_start (compiled : Compiled builtSchema program m)
    (known : held ∈ m.schema.opcodes.map (·.symbol)) : Paced m [init.name] held := by
  obtain ⟨code, listed⟩ := (mem_symbols_iff compiled).mp known
  refine ⟨known, List.IsChain.singleton _, fun window inside _ => ?_,
    init.name, [], 0, rfl, returns_init (held, code) listed, by decide⟩
  exact inside.length_le.trans (by decide)

theorem Paced.fetch (compiled : Compiled builtSchema program m)
    (paced : Paced m (fetchDecode.name :: visited) held) {symbol : String}
    (known : symbol ∈ m.schema.opcodes.map (·.symbol)) :
    Paced m (fetchDecode.name :: visited) symbol where
  known := known
  moved := paced.moved
  bounded := paced.bounded
  due := due_fetchDecode compiled visited known

/-- One step: the processor leaves the state, and it is in `FETCH_DECODE` or one move nearer. -/
theorem Paced.step (compiled : Compiled builtSchema program m) {state next : String}
    {zero negative : Bool} (paced : Paced m (state :: visited) held)
    (moves : m.next? state held zero negative = some next) :
    Paced m (next :: state :: visited) held := by
  obtain ⟨known, moved, bounded, _, _, left, same, back, inTime⟩ := paced
  cases same
  obtain ⟨next', successor, leaves, nearer⟩ := exists_next_of_returns back zero negative
  rw [compiled.next?_eq_successor?, if_pos (compiled.schema_eq ▸ known), successor] at moves
  cases moves
  have due : ∃ state' earlier moves, next :: state :: visited = state' :: earlier ∧
      returns held (moves + 1) state' = true ∧ away (next :: state :: visited) + moves ≤ 3 := by
    by_cases atFetch : next = fetchDecode.name
    · rw [atFetch]
      exact due_fetchDecode compiled _ known
    · have back := nearer.resolve_left atFetch
      cases left with
      | zero => cases back
      | succ left =>
          refine ⟨next, _, left, rfl, back, ?_⟩
          rw [away, if_neg atFetch]
          omega
  refine ⟨known, List.isChain_cons_cons.mpr ⟨leaves, moved⟩, fun window inside without => ?_, due⟩
  -- A new window ends in the new state, and there the way back still fits into three states.
  rcases List.infix_cons_iff.mp inside with last | earlier
  · obtain ⟨-, -, left', -, -, inTime'⟩ := due
    exact (length_le_away last without).trans (Nat.le_of_add_right_le inTime')
  · exact bounded window earlier without

theorem paced_of_run (compiled : Compiled builtSchema program m) (run : Run m visited held) :
    Paced m visited held := by
  induction run with
  | start known => exact paced_start compiled known
  | fetch _ known paced => exact paced.fetch compiled known
  | step _ moves paced => exact paced.step compiled moves

/-- The compiled processor can take every step of its microprogram. -/
theorem Run.successor (compiled : Compiled builtSchema program m) {state next : String}
    (run : Run m (state :: visited) held) (known : held ∈ builtSchema.opcodes.map (·.symbol))
    (zero negative : Bool) (moves : program.successor? state held zero negative = some next) :
    Run m (next :: state :: visited) held := by
  have compiledMoves : m.next? state held zero negative = some next := by
    rw [compiled.next?_eq_successor?, if_pos known, moves]
  exact run.step compiledMoves

end Run

/-- No instruction hangs the processor: in every run each state differs from the one before it, at
most three states in a row are not `FETCH_DECODE`, and there is always a next state. -/
theorem run_returns_to_fetch :
    ∃ schema m, ReferenceCpu.schema = .ok schema ∧ compile schema program = .ok m ∧
      ∀ (visited : List String) (held : String), Run m visited held →
        visited.IsChain (· ≠ ·) ∧
        (∀ window, window <:+: visited → fetchDecode.name ∉ window → window.length ≤ 3) ∧
        ∃ state earlier, visited = state :: earlier ∧
          ∀ zero negative, ∃ next, m.next? state held zero negative = some next := by
  obtain ⟨m, success⟩ := compiles
  have compiled := compiled_of_compile success
  refine ⟨builtSchema, m, schema_eq, success, fun visited held run => ?_⟩
  obtain ⟨known, moved, bounded, state, earlier, left, rfl, back, -⟩ := paced_of_run compiled run
  refine ⟨moved, bounded, state, earlier, rfl, fun zero negative => ?_⟩
  obtain ⟨next, successor, -, -⟩ := exists_next_of_returns back zero negative
  refine ⟨next, ?_⟩
  rw [compiled.next?_eq_successor?, if_pos (compiled.schema_eq ▸ known), successor]

/-- After a start with `NOOP` in hand, `ADDI` with an immediate: the longest way around. -/
theorem run_returns_to_fetch_addi :
    ∃ schema m, ReferenceCpu.schema = .ok schema ∧ compile schema program = .ok m ∧
      let visited := ["FETCH_DECODE", "INC_PC_TWICE", "ADD_IMMEDIATE", "FETCH_IMMEDIATE",
        "FETCH_DECODE", "INIT"]
      Run m visited "ADDI" ∧ visited.IsChain (· ≠ ·) ∧
        (∀ window, window <:+: visited → fetchDecode.name ∉ window → window.length ≤ 3) ∧
        ∀ zero negative, ∃ next, m.next? "FETCH_DECODE" "ADDI" zero negative = some next := by
  obtain ⟨schema, m, built, success, paced⟩ := run_returns_to_fetch
  cases schema_eq.symm.trans built
  have compiled := compiled_of_compile success
  have noop : "NOOP" ∈ builtSchema.opcodes.map (·.symbol) := by decide +kernel
  have addi : "ADDI" ∈ builtSchema.opcodes.map (·.symbol) := by decide +kernel
  have started : Run m ["INIT"] "NOOP" := .start (compiled.schema_eq ▸ noop)
  have fetching : Run m ["FETCH_DECODE", "INIT"] "NOOP" :=
    started.successor compiled noop true true (by decide +kernel)
  have run : Run m ["FETCH_DECODE", "INC_PC_TWICE", "ADD_IMMEDIATE", "FETCH_IMMEDIATE",
      "FETCH_DECODE", "INIT"] "ADDI" :=
    (fetching.fetch (compiled.schema_eq ▸ addi))
      |>.successor compiled addi false false (by decide +kernel)
      |>.successor compiled addi false true (by decide +kernel)
      |>.successor compiled addi true false (by decide +kernel)
      |>.successor compiled addi true true (by decide +kernel)
  obtain ⟨moved, bounded, _, _, same, more⟩ := paced _ _ run
  cases same
  exact ⟨builtSchema, m, built, success, run, moved, bounded, more⟩

end ControlStore.ReferenceCpu
