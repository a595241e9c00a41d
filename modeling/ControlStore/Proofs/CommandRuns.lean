import ControlStore.Proofs.CommandItems
import ControlStore.Proofs.FirstFault

set_option autoImplicit false

/-!
Runs of the command line are all or nothing. A run fails with an error and shows no dump, or it
shows exactly the dumps that were asked for; and asking for a listing adds the listing.
-/
namespace ControlStore.CommandLine

/-! ### Programs -/

theorem builtIn_eq_ok_iff {loaded : Loaded} :
    builtIn = .ok loaded ↔
      ∃ schema, ReferenceCpu.schema = .ok schema ∧ loaded = ⟨schema, ReferenceCpu.program, 0⟩ := by
  unfold builtIn
  cases ReferenceCpu.schema with
  | error error => simp
  | ok schema => simp [eq_comm]

theorem readText_eq_ok_iff {files : Files} {path text : String} :
    readText files path = .ok text ↔
      ∃ bytes, files path = .ok bytes ∧ String.fromUTF8? bytes = some text := by
  unfold readText
  cases files path with
  | error fault => simp
  | ok bytes =>
      dsimp only
      cases decoded : String.fromUTF8? bytes <;> simp [decoded]

/-- A path, or none, stands for a microcode if its program is loaded and compiles to it. -/
theorem assembles_iff {files : Files} {path : Option String} {m : Microcode} :
    Assembles files path m ↔
      ∃ loaded, load files path = .ok loaded ∧ compile loaded.schema loaded.program = .ok m := by
  constructor
  · intro assembles
    cases assembles with
    | builtIn built compiled => exact ⟨_, builtIn_eq_ok_iff.mpr ⟨_, built, rfl⟩, compiled⟩
    | file found decoded loaded compiled =>
        refine ⟨_, bind_eq_ok_iff.mpr ⟨_, readText_eq_ok_iff.mpr ⟨_, found, decoded⟩, ?_⟩, compiled⟩
        rw [loaded]
        rfl
  · rintro ⟨loaded, success, compiled⟩
    cases path with
    | none =>
        obtain ⟨schema, built, rfl⟩ := builtIn_eq_ok_iff.mp success
        exact .builtIn built compiled
    | some path =>
        obtain ⟨text, read, success⟩ := bind_eq_ok_iff.mp success
        obtain ⟨bytes, found, decoded⟩ := readText_eq_ok_iff.mp read
        cases given : Loaded.ofText text.toList with
        | error error =>
            rw [given] at success
            cases success
        | ok held =>
            rw [given] at success
            cases success
            exact .file found decoded given compiled

/-- A run of options shows the dumps of what it compiled, or fails because there is nothing. -/
theorem runWith_load (options : Options) (ignored : Nat) (files : Files) (path : Option String) :
    (∃ m errors warnings, Assembles files path m ∧
      runWith options ignored (load files path) = ⟨0, dumps options m, errors, warnings⟩) ∨
    (¬ ∃ m, Assembles files path m) ∧
      ∃ message warnings, runWith options ignored (load files path) = .failure message warnings := by
  simp only [assembles_iff]
  cases found : load files path with
  | error error => exact Or.inr ⟨by simp, error.message, ignored, rfl⟩
  | ok loaded =>
      dsimp only [runWith]
      cases compiled : compile loaded.schema loaded.program with
      | error error => exact Or.inr ⟨by simp [compiled], _, _, rfl⟩
      | ok m => exact Or.inl ⟨m, _, _, ⟨loaded, rfl, compiled⟩, rfl⟩

/-! ### Listings -/

/-- Items without those that ask for a listing. -/
def quiet (items : List Item) : List Item := items.filter (· ≠ .verbose)

@[simp] theorem quiet_cons_verbose (rest : List Item) : quiet (.verbose :: rest) = quiet rest := by
  simp [quiet]

theorem quiet_cons {item : Item} (spoken : item ≠ .verbose) (rest : List Item) :
    quiet (item :: rest) = item :: quiet rest := by
  simp [quiet, spoken]

theorem verdict?_quiet (items : List Item) : verdict? (quiet items) = verdict? items := by
  induction items with
  | nil => rfl
  | cons item rest ih =>
      unfold verdict? at ih ⊢
      by_cases silent : item = .verbose
      · rw [silent, quiet_cons_verbose, ih]
        rfl
      · rw [quiet_cons silent, List.findSome?_cons, List.findSome?_cons, ih]

theorem path?_quiet (items : List Item) : path? (quiet items) = path? items := by
  induction items with
  | nil => rfl
  | cons item rest ih =>
      by_cases silent : item = .verbose
      · rw [silent, quiet_cons_verbose, ih, path?_cons]
        exact (Option.or_none).symm
      · rw [quiet_cons silent, path?_cons, path?_cons, ih]

theorem ignoredCount_quiet (items : List Item) :
    ignoredCount (quiet items) = ignoredCount items := by
  induction items with
  | nil => rfl
  | cons item rest ih =>
      unfold ignoredCount at ih ⊢
      by_cases silent : item = .verbose
      · rw [silent, quiet_cons_verbose, ih]
        rfl
      · rw [quiet_cons silent, List.takeWhile_cons, List.takeWhile_cons]
        split
        · rw [List.countP_cons, List.countP_cons, ih]
        · rfl

/-- Without requests for a listing the same is asked for, but for the listing. -/
theorem ofItems_quiet (items : List Item) :
    Options.ofItems (quiet items) = { Options.ofItems items with verbose := false } := by
  rw [Options.ofItems, path?_quiet]
  simp [Options.ofItems, quiet]

theorem ofItems_of_quiet_eq {items other : List Item} (same : quiet other = quiet items) :
    Options.ofItems other =
      { Options.ofItems items with verbose := (Options.ofItems other).verbose } := by
  have equal := (ofItems_quiet other).symm.trans ((congrArg Options.ofItems same).trans
    (ofItems_quiet items))
  simp only [Options.mk.injEq] at equal
  simp only [Options.ofItems, Options.mk.injEq] at equal ⊢
  exact ⟨equal.1, equal.2.1, trivial, equal.2.2.2⟩

/-- Whether a listing is asked for shows in nothing but the listing. -/
theorem runWith_verbose (options : Options) (verbose : Bool) (ignored : Nat)
    (loaded : Except RunError Loaded) :
    runWith { options with verbose } ignored loaded =
      { runWith options ignored loaded with
        errors := (runWith { options with verbose } ignored loaded).errors } := by
  cases loaded with
  | error error => rfl
  | ok loaded =>
      dsimp only [runWith]
      cases compile loaded.schema loaded.program <;> rfl

/-! ### Whole runs -/

theorem run_eq (files : Files) (arguments : List String) :
    run files arguments =
      match verdict? (Item.ofArguments arguments) with
      | some (.ok .help) =>
          ⟨0, usage ++ "\n", "", ignoredCount (Item.ofArguments arguments)⟩
      | some (.ok (.run options)) =>
          runWith options (ignoredCount (Item.ofArguments arguments)) (load files options.program)
      | some (.error error) => ⟨1, "", s!"error: {error.message}\n" ++ usage ++ "\n",
          ignoredCount (Item.ofArguments arguments)⟩
      | none => runWith (.ofItems (Item.ofArguments arguments))
          (ignoredCount (Item.ofArguments arguments))
          (load files (path? (Item.ofArguments arguments))) := by
  unfold run
  rw [read_items]
  rcases verdict? (Item.ofArguments arguments) with _ | _ | _ | _ <;> rfl

/-- An item never decides for a run. -/
theorem verdict?_ne_run (items : List Item) (options : Options) :
    verdict? items ≠ some (.ok (.run options)) := by
  intro decided
  obtain ⟨item, -, verdict⟩ := List.exists_of_findSome?_eq_some decided
  cases item <;> cases verdict

/-- A run that asks for a listing differs only in what it writes besides the dumps. -/
theorem run_of_quiet_eq (files : Files) {arguments other : List String}
    (same : quiet (Item.ofArguments other) = quiet (Item.ofArguments arguments)) :
    run files other = { run files arguments with errors := (run files other).errors } := by
  have verdicts := congrArg verdict? same
  have paths := congrArg path? same
  have counts := congrArg ignoredCount same
  rw [verdict?_quiet, verdict?_quiet] at verdicts
  rw [path?_quiet, path?_quiet] at paths
  rw [ignoredCount_quiet, ignoredCount_quiet] at counts
  rw [run_eq, run_eq, verdicts, paths, counts]
  cases decided : verdict? (Item.ofArguments arguments) with
  | none =>
      rw [ofItems_of_quiet_eq same]
      exact runWith_verbose _ _ _ _
  | some verdict =>
      rcases verdict with error | _ | options
      · rfl
      · rfl
      · exact absurd decided (verdict?_ne_run _ options)

/-- The ways in which a run can end. -/
inductive Ending (files : Files) (items : List Item) : Outcome → Prop where
  | help (warnings : Nat) : verdict? items = some (.ok .help) →
      Ending files items ⟨0, usage ++ "\n", "", warnings⟩
  | dumped (m : Microcode) (errors : String) (warnings : Nat) : verdict? items = none →
      Assembles files (path? items) m →
      Ending files items ⟨0, dumps (.ofItems items) m, errors, warnings⟩
  | failed (message more : String) (warnings : Nat) : verdict? items ≠ some (.ok .help) →
      ¬ (verdict? items = none ∧ ∃ m, Assembles files (path? items) m) →
      Ending files items ⟨1, "", "error: " ++ message ++ "\n" ++ more, warnings⟩

theorem ending_run (files : Files) (arguments : List String) :
    Ending files (Item.ofArguments arguments) (run files arguments) := by
  rw [run_eq]
  cases decided : verdict? (Item.ofArguments arguments) with
  | none =>
      rcases runWith_load (.ofItems (Item.ofArguments arguments))
          (ignoredCount (Item.ofArguments arguments)) files (path? (Item.ofArguments arguments)) with
        ⟨m, errors, warnings, assembles, shown⟩ | ⟨nothing, message, warnings, failed⟩
      · dsimp only
        rw [shown]
        exact .dumped m errors warnings decided assembles
      · dsimp only
        rw [failed]
        have ended := @Ending.failed files _ message "" warnings
          (by rw [decided]; simp) fun assembles => nothing assembles.2
        rwa [String.append_empty] at ended
  | some verdict =>
      rcases verdict with error | _ | options
      · have ended := @Ending.failed files _ error.message (usage ++ "\n")
          (ignoredCount (Item.ofArguments arguments)) (by rw [decided]; simp) (by simp [decided])
        rwa [← String.append_assoc] at ended
      · exact .help _ decided
      · exact absurd decided (verdict?_ne_run _ options)

namespace Ending

variable {files : Files} {items : List Item} {outcome : Outcome}

theorem exitCode_eq (ended : Ending files items outcome) :
    outcome.exitCode = 0 ∨ outcome.exitCode = 1 := by
  cases ended with
  | help | dumped => exact Or.inl rfl
  | failed => exact Or.inr rfl

theorem exitCode_eq_zero_iff (ended : Ending files items outcome) :
    outcome.exitCode = 0 ↔ verdict? items = some (.ok .help) ∨
      verdict? items = none ∧ ∃ m, Assembles files (path? items) m := by
  cases ended with
  | help warnings asked => simp [asked]
  | dumped m errors warnings undecided assembles => simpa [undecided] using ⟨m, assembles⟩
  | failed message more warnings noHelp nothing => simp [noHelp, nothing]

end Ending

/-- A command line is all or nothing. It succeeds exactly if help is asked for first, or nothing
decides and its program compiles. If it fails, it writes an error and no output. If it succeeds and
help was not asked for, its output is the dumps of those ROMs of the compiled program that were
asked for, each once and the decision ROM first. Asking for a listing changes nothing else. -/
theorem run_all_or_nothing (files : Files) (arguments : List String) :
    let items := Item.ofArguments arguments
    let outcome := run files arguments
    (outcome.exitCode = 0 ∨ outcome.exitCode = 1) ∧
    (outcome.exitCode = 0 ↔ verdict? items = some (.ok .help) ∨
      verdict? items = none ∧ ∃ m, Assembles files (path? items) m) ∧
    (outcome.exitCode = 1 → outcome.output = "" ∧
      ∃ message more, outcome.errors = "error: " ++ message ++ "\n" ++ more) ∧
    (outcome.exitCode = 0 → verdict? items ≠ some (.ok .help) →
      ∃ m, Assembles files (path? items) m ∧ outcome.output =
        (if .decision ∈ items then Dump.decision m.decisionRom ++ "\n" else "") ++
          (if .control ∈ items then Dump.control m.controlRom ++ "\n" else "")) ∧
    ∀ other, quiet (Item.ofArguments other) = quiet items →
      ∃ errors, run files other = { outcome with errors } := by
  intro items outcome
  have ended : Ending files items outcome := ending_run files arguments
  refine ⟨ended.exitCode_eq, ended.exitCode_eq_zero_iff, ?_, ?_, ?_⟩
  · intro failed
    generalize outcome = shown at ended failed
    cases ended with
    | help | dumped => cases failed
    | failed message more => exact ⟨rfl, message, more, rfl⟩
  · intro succeeded noHelp
    generalize outcome = shown at ended succeeded
    cases ended with
    | help warnings asked => exact absurd asked noHelp
    | dumped m errors warnings undecided assembles =>
        refine ⟨m, assembles, ?_⟩
        simp only [dumps, Options.ofItems, decide_eq_true_eq, Microcode.decisionDump_eq,
          Microcode.controlDump_eq]
    | failed => cases succeeded
  · intro other same
    exact ⟨_, run_of_quiet_eq files same⟩

/-- One program file, of a single state and a single opcode. -/
def tinyFiles : Files := fun path =>
  if path = "tiny" then
    .ok ("\x7bgeometry:[1,1],opcodes:\x7bA:0\x7d," ++
      "states:[\x7bname:\x27S\x27,next:\x27S\x27\x7d]\x7d").toUTF8
  else .error .missing

/-- The dumps are asked for in the wrong order, and the first file is called like a mode. -/
theorem run_all_or_nothing_tiny :
    (∃ m, Assembles tinyFiles (some "tiny") m ∧
      (run tinyFiles ["control", "-p", "decision", "decision", "-p", "tiny", "-v"]).output =
        Dump.decision m.decisionRom ++ "\n" ++ (Dump.control m.controlRom ++ "\n")) ∧
    (run tinyFiles ["control", "-p", "decision", "decision", "-p", "tiny", "-v"]).output =
      "00 01 00 01 00 01 00 01 00 01 00 01 00 01 00 01 \n00000000 \n" ∧
    (run tinyFiles ["-p", "tiny", "decision", "-p", "other"]).output = "" := by
  refine ⟨?_, by decide +kernel, ?_⟩
  · obtain ⟨-, -, -, dumped, -⟩ := run_all_or_nothing tinyFiles
      ["control", "-p", "decision", "decision", "-p", "tiny", "-v"]
    exact dumped (by decide +kernel) (fun help => Option.some_ne_none _ help.symm)
  · obtain ⟨-, -, failed, -⟩ := run_all_or_nothing tinyFiles
      ["-p", "tiny", "decision", "-p", "other"]
    exact (failed (by decide +kernel)).1

end ControlStore.CommandLine
