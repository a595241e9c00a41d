import ControlStore.Proofs.ArgumentItems
import ControlStore.Proofs.CommandRuns

set_option autoImplicit false

/-!
Words that nobody asked for. Reading a line of arguments goes on behind a front of it, has ended in
the front, or waits for a value that the next argument gives. An ignored word that is not taken for
such a value adds one notice if it is read at all, and changes nothing else.
-/
namespace ControlStore.CommandLine

/-- The last argument is read as an option for a program file, and what comes next is its value. -/
def Awaiting (arguments : List String) : Prop :=
  ∃ before option options, arguments = before ++ [option] ∧ isProgram option = true ∧
    (read before).request = .ok (.run options)

/-- Where reading stands behind a front of the arguments, whatever comes next. -/
inductive Stands (ignored : Nat) (options : Options) (front : List String) : Prop where
  /-- It goes on. -/
  | reading (count : Nat) (held : Options) :
      (∀ back, readFrom ignored options (front ++ back) = readFrom count held back) →
        Stands ignored options front
  | ended (outcome : Reading) : (∀ held, outcome.request ≠ .ok (.run held)) →
      (∀ back, readFrom ignored options (front ++ back) = outcome) → Stands ignored options front
  /-- It waits for the value of the last argument. -/
  | awaiting (before : List String) (option : String) (held : Options) :
      front = before ++ [option] → isProgram option = true →
        (readFrom ignored options before).request = .ok (.run held) → Stands ignored options front

/-- Behind one more item reading stands where it stands behind the others. -/
theorem Stands.cons {ignored count : Nat} {options held : Options} (item : List String)
    {rest : List String}
    (step : ∀ back, readFrom ignored options (item ++ back) = readFrom count held back)
    (stands : Stands count held rest) : Stands ignored options (item ++ rest) := by
  cases stands with
  | reading count' held' later =>
      apply Stands.reading count' held'
      intro back
      rw [List.append_assoc, step, later]
  | ended outcome noRun later =>
      apply Stands.ended outcome noRun
      intro back
      rw [List.append_assoc, step, later]
  | awaiting before option held' split program later =>
      apply Stands.awaiting (item ++ before) option held'
      · rw [split, List.append_assoc]
      · exact program
      · rw [step, later]

/-- An argument that takes no value ends reading or is passed. -/
theorem stands_ofArgument (ignored : Nat) (options : Options) {argument : String}
    (noValue : isProgram argument = false) {rest : List String}
    (later : ∀ count held, Stands count held rest) :
    Stands ignored options (argument :: rest) := by
  have step := readFrom_ofArgument ignored options noValue
  cases decided : (Item.ofArgument argument).verdict? with
  | none =>
      rw [decided] at step
      exact Stands.cons [argument] step (later _ _)
  | some verdict =>
      rw [decided] at step
      apply Stands.ended ⟨ignored, verdict⟩
      · rintro held rfl
        cases said : Item.ofArgument argument <;> rw [said] at decided <;> cases decided
      · exact fun back => step (rest ++ back)

theorem stands (ignored : Nat) (options : Options) (front : List String) :
    Stands ignored options front := by
  fun_induction Item.ofArguments front generalizing ignored options with
  | case1 => exact .reading ignored options fun _ => rfl
  | case2 argument =>
      cases program : isProgram argument with
      | true => exact .awaiting [] argument options rfl program rfl
      | false =>
          exact stands_ofArgument ignored options program
            fun count held => .reading count held fun _ => rfl
  | case3 option path rest program ih =>
      exact Stands.cons [option, path]
        (fun back => readFrom_program ignored options program (path :: back)) (ih _ _)
  | case4 argument value rest noProgram ih =>
      exact stands_ofArgument ignored options (by simpa using noProgram) ih

/-! ### Notices -/

/-- Notices given before are only added to those that are still to come. -/
theorem readFrom_add (ignored more : Nat) (options : Options) (arguments : List String) :
    readFrom (ignored + more) options arguments =
      { readFrom ignored options arguments with
        ignored := (readFrom ignored options arguments).ignored + more } := by
  rw [readFrom_items, readFrom_items]
  simp only [Reading.ofItems, Reading.mk.injEq, and_true]
  omega

/-- An ignored word is noticed and passed. -/
theorem readFrom_ignored {word : String} (spelled : Spelled word (.ignored word)) (ignored : Nat)
    (options : Options) (rest : List String) :
    readFrom ignored options (word :: rest) = readFrom (ignored + 1) options rest := by
  have item := spelled_iff.mp spelled
  have noValue : isProgram word = false := by
    apply Bool.eq_false_iff.mpr
    intro program
    have spelled := isProgram_iff.mp program
    simp only [List.mem_cons, List.not_mem_nil, or_false] at spelled
    rcases spelled with rfl | rfl <;> exact absurd item (by decide)
  rw [readFrom_ofArgument ignored options noValue, item]
  rfl

/-- Lines that are read alike but for some notices are run alike but for as many warnings. -/
theorem run_of_read_eq (files : Files) {arguments other : List String} {more : Nat}
    (same : read other = { read arguments with ignored := (read arguments).ignored + more }) :
    run files other =
      { run files arguments with warnings := (run files arguments).warnings + more } := by
  unfold run
  rw [same]
  dsimp only
  generalize (read arguments).ignored = ignored
  cases (read arguments).request with
  | error error => rfl
  | ok request =>
      cases request with
      | help => rfl
      | run options =>
          dsimp only
          cases load files options.program with
          | error error => rfl
          | ok loaded =>
              dsimp only [runWith]
              cases compile loaded.schema loaded.program with
              | error error =>
                  simp only [Outcome.failure, Outcome.mk.injEq, true_and]
                  omega
              | ok m =>
                  simp only [Outcome.mk.injEq, true_and]
                  omega

/-- Reading comes to the end of a line exactly if no item of it decides. -/
theorem request_eq_run_iff (arguments : List String) :
    (∃ options, (read arguments).request = .ok (.run options)) ↔
      ∀ item ∈ Item.ofArguments arguments, item.verdict? = none := by
  rw [← List.findSome?_eq_none_iff]
  change _ ↔ verdict? (Item.ofArguments arguments) = none
  rw [read_items]
  cases decided : verdict? (Item.ofArguments arguments) with
  | none => simp
  | some verdict =>
      simp only [Option.getD_some, reduceCtorEq, iff_false]
      rintro ⟨options, rfl⟩
      exact verdict?_ne_run _ options decided

/-- A word that is neither an option nor a mode can be put anywhere into a line of arguments, unless
it becomes the value of an option for a program file. Before the first item that decides, or if there
is none, the run has one more warning and is the same otherwise; behind that item nothing changes. -/
theorem run_ignores_inserted (files : Files) {front : List String} {word : String}
    (back : List String) (plain : ∀ rest, word ≠ "-" ++ rest)
    (noMode : word ≠ "decision" ∧ word ≠ "control") (noValue : ¬ Awaiting front) :
    ((∀ item ∈ Item.ofArguments front, item.verdict? = none) →
      run files (front ++ word :: back) =
        { run files (front ++ back) with
          warnings := (run files (front ++ back)).warnings + 1 }) ∧
    ((∃ item ∈ Item.ofArguments front, item.verdict? ≠ none) →
      run files (front ++ word :: back) = run files (front ++ back)) := by
  have spelled : Spelled word (.ignored word) := .ignored plain (by simpa using noMode)
  have undecided := request_eq_run_iff front
  cases stands 0 .none front with
  | reading count held step =>
      constructor
      · intro _
        apply run_of_read_eq
        rw [read, step, readFrom_ignored spelled, readFrom_add, ← step]
        rfl
      · rintro ⟨item, member, decided⟩
        have goes : (read front).request = .ok (.run held) := by
          have whole := step []
          rw [List.append_nil] at whole
          rw [read, whole]
          rfl
        exact absurd (undecided.mp ⟨held, goes⟩ item member) decided
  | ended outcome noRun step =>
      have same : read (front ++ word :: back) = read (front ++ back) :=
        (step _).trans (step back).symm
      constructor
      · intro nothing
        obtain ⟨held, goes⟩ := undecided.mpr nothing
        have whole := step []
        rw [List.append_nil] at whole
        exact absurd (whole ▸ goes) (noRun held)
      · intro _
        rw [run, run, same]
  | awaiting before option held split program goes =>
      exact absurd ⟨before, option, held, split, program, goes⟩ noValue

theorem not_awaiting (last : String) {arguments : List String}
    (ends : arguments.getLast? = some last) (noOption : isProgram last = false) :
    ¬ Awaiting arguments := by
  rintro ⟨before, option, options, rfl, program, -⟩
  obtain rfl : option = last := by simpa using ends
  rw [program] at noOption
  cases noOption

/-- The empty word behind a named file, and a word behind a call for help and an unknown option. -/
theorem run_ignores_inserted_empty :
    run tinyFiles (["-p", "tiny"] ++ "" :: ["decision"]) =
      { run tinyFiles (["-p", "tiny"] ++ ["decision"]) with
        warnings := (run tinyFiles (["-p", "tiny"] ++ ["decision"])).warnings + 1 } ∧
    run tinyFiles (["-h", "-x"] ++ "extra" :: ["decision"]) =
      run tinyFiles (["-h", "-x"] ++ ["decision"]) := by
  have noDash {word rest : String} (plain : isOption word = false) : word ≠ "-" ++ rest := by
    intro dash
    simp [isOption_iff.mpr ⟨rest, dash⟩] at plain
  constructor
  · have closed : ¬ Awaiting ["-p", "tiny"] := not_awaiting "tiny" rfl (by decide)
    have undecided : ∀ item ∈ Item.ofArguments ["-p", "tiny"], item.verdict? = none := by
      intro item member
      obtain rfl : item = .program "tiny" := List.mem_singleton.mp member
      rfl
    exact (run_ignores_inserted tinyFiles ["decision"] (fun _ => noDash (by decide)) (by decide)
      closed).1 undecided
  · have closed : ¬ Awaiting ["-h", "-x"] := not_awaiting "-x" rfl (by decide)
    have decided : ∃ item ∈ Item.ofArguments ["-h", "-x"], item.verdict? ≠ none :=
      ⟨.help, by decide, by simp [Item.verdict?]⟩
    exact (run_ignores_inserted tinyFiles ["decision"] (fun _ => noDash (by decide)) (by decide)
      closed).2 decided

end ControlStore.CommandLine
