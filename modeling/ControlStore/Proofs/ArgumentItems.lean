import ControlStore.Proofs.CommandItems

set_option autoImplicit false

/-!
What arguments ask for, told without reading them one by one. From the left, an option for a program
file and whatever stands behind it are one item; every other argument is an item of its own, and its
spelling tells which. The first item that decides anything decides for the whole line; otherwise the
line asks for all that its items ask for.
-/
namespace ControlStore.CommandLine

/-- How an item is spelled that takes no value. -/
inductive Spelled : String → Item → Prop where
  | help {argument : String} : argument ∈ ["-h", "--help"] → Spelled argument .help
  | decision : Spelled "decision" .decision
  | control : Spelled "control" .control
  | verbose {argument : String} : argument ∈ ["-v", "--verbose"] → Spelled argument .verbose
  | unknownOption {argument rest : String} : argument = "-" ++ rest →
      argument ∉ ["-h", "--help", "-v", "--verbose"] → Spelled argument (.unknownOption argument)
  | ignored {argument : String} : (∀ rest, argument ≠ "-" ++ rest) →
      argument ∉ ["decision", "control"] → Spelled argument (.ignored argument)

/-- How arguments are cut into items, from the left. -/
inductive Itemised : List String → List Item → Prop where
  | done : Itemised [] []
  /-- The argument behind the option is its value, whatever it is. -/
  | program {option path : String} {rest : List String} {items : List Item} :
      option ∈ ["-p", "--program"] → Itemised rest items →
        Itemised (option :: path :: rest) (.program path :: items)
  | missingValue {option : String} : option ∈ ["-p", "--program"] →
      Itemised [option] [.missingValue]
  | argument {argument : String} {item : Item} {rest : List String} {items : List Item} :
      argument ∉ ["-p", "--program"] → Spelled argument item → Itemised rest items →
        Itemised (argument :: rest) (item :: items)

/-! ### Arguments -/

theorem isHelp_iff {argument : String} :
    isHelp argument = true ↔ argument ∈ ["-h", "--help"] := by
  simp [isHelp]

theorem isVerbose_iff {argument : String} :
    isVerbose argument = true ↔ argument ∈ ["-v", "--verbose"] := by
  simp [isVerbose]

theorem isProgram_iff {argument : String} :
    isProgram argument = true ↔ argument ∈ ["-p", "--program"] := by
  simp [isProgram]

theorem isOption_iff {argument : String} :
    isOption argument = true ↔ ∃ rest, argument = "-" ++ rest := by
  unfold isOption
  constructor
  · intro dash
    cases spelled : argument.toList with
    | nil => simp [spelled] at dash
    | cons first rest =>
        obtain rfl : first = '-' := by simpa [spelled] using dash
        refine ⟨String.ofList rest, ?_⟩
        apply String.toList_inj.mp
        rw [spelled]
        simp
  · rintro ⟨rest, rfl⟩
    simp

theorem isOption_of_isHelp {argument : String} (help : isHelp argument = true) :
    isOption argument = true := by
  have spelled := isHelp_iff.mp help
  simp only [List.mem_cons, List.not_mem_nil, or_false] at spelled
  rcases spelled with rfl | rfl <;> decide

theorem isOption_of_isVerbose {argument : String} (verbose : isVerbose argument = true) :
    isOption argument = true := by
  have spelled := isVerbose_iff.mp verbose
  simp only [List.mem_cons, List.not_mem_nil, or_false] at spelled
  rcases spelled with rfl | rfl <;> decide

theorem ofArgument_of_isOption {argument : String} (option : isOption argument = true)
    (other : argument ∉ ["-h", "--help", "-v", "--verbose"]) :
    Item.ofArgument argument = .unknownOption argument := by
  have noHelp : isHelp argument = false := by
    simp_all [isHelp]
  have noVerbose : isVerbose argument = false := by
    simp_all [isVerbose]
  have noDecision : argument ≠ "decision" := by
    rintro rfl
    exact absurd option (by decide)
  have noControl : argument ≠ "control" := by
    rintro rfl
    exact absurd option (by decide)
  simp [Item.ofArgument, noHelp, noVerbose, noDecision, noControl, option]

/-- An argument that is neither an option nor a mode is ignored. -/
theorem ofArgument_of_plain {argument : String} (plain : isOption argument = false)
    (other : argument ∉ ["decision", "control"]) :
    Item.ofArgument argument = .ignored argument := by
  have noHelp : isHelp argument = false := by
    apply Bool.eq_false_iff.mpr
    intro help
    simp [isOption_of_isHelp help] at plain
  have noVerbose : isVerbose argument = false := by
    apply Bool.eq_false_iff.mpr
    intro verbose
    simp [isOption_of_isVerbose verbose] at plain
  have noMode : argument ≠ "decision" ∧ argument ≠ "control" := by
    simpa using other
  simp [Item.ofArgument, noHelp, noVerbose, noMode, plain]

/-- The spelling of an argument tells its item. -/
theorem spelled_iff {argument : String} {item : Item} :
    Spelled argument item ↔ Item.ofArgument argument = item := by
  constructor
  · intro spells
    cases spells with
    | help spelled => simp [Item.ofArgument, isHelp_iff.mpr spelled]
    | decision => rfl
    | control => rfl
    | verbose spelled =>
        simp only [List.mem_cons, List.not_mem_nil, or_false] at spelled
        rcases spelled with rfl | rfl <;> rfl
    | unknownOption dash other =>
        exact ofArgument_of_isOption (isOption_iff.mpr ⟨_, dash⟩) other
    | ignored plain other =>
        apply ofArgument_of_plain _ other
        apply Bool.eq_false_iff.mpr
        intro option
        obtain ⟨rest, dash⟩ := isOption_iff.mp option
        exact plain rest dash
  · rintro rfl
    unfold Item.ofArgument
    split_ifs with help decision control verbose option
    · exact .help (isHelp_iff.mp help)
    · exact decision ▸ .decision
    · exact control ▸ .control
    · exact .verbose (isVerbose_iff.mp verbose)
    · obtain ⟨rest, dash⟩ := isOption_iff.mp option
      refine .unknownOption dash ?_
      simp_all [isHelp, isVerbose]
    · refine .ignored ?_ (by simp [decision, control])
      intro rest dash
      exact option (isOption_iff.mpr ⟨rest, dash⟩)

/-! ### Lines -/

theorem itemised_ofArguments (arguments : List String) :
    Itemised arguments (Item.ofArguments arguments) := by
  fun_induction Item.ofArguments arguments with
  | case1 => exact .done
  | case2 argument =>
      split_ifs with program
      · exact .missingValue (isProgram_iff.mp program)
      · exact .argument (mt isProgram_iff.mpr program) (spelled_iff.mpr rfl) .done
  | case3 option path rest program ih => exact .program (isProgram_iff.mp program) ih
  | case4 argument value rest noProgram ih =>
      exact .argument (mt isProgram_iff.mpr noProgram) (spelled_iff.mpr rfl) ih

/-- Arguments are cut into items in one way. -/
theorem itemised_iff {arguments : List String} {items : List Item} :
    Itemised arguments items ↔ items = Item.ofArguments arguments := by
  constructor
  · intro cut
    induction cut with
    | done => rfl
    | program program _ ih => rw [Item.ofArguments, if_pos (isProgram_iff.mpr program), ih]
    | missingValue program => rw [Item.ofArguments, if_pos (isProgram_iff.mpr program)]
    | @argument argument item rest items noProgram spells _ ih =>
        have single : ¬ isProgram argument = true := mt isProgram_iff.mp noProgram
        have said := spelled_iff.mp spells
        cases rest with
        | nil => rw [Item.ofArguments, if_neg single, said, ih, Item.ofArguments]
        | cons value rest => rw [Item.ofArguments, if_neg single, said, ih]
  · rintro rfl
    exact itemised_ofArguments arguments

/-- The first item that decides anything decides. -/
theorem verdict?_eq_some_iff {items : List Item} {verdict : Except UsageError Request} :
    verdict? items = some verdict ↔ ∃ before item behind, items = before ++ item :: behind ∧
      (∀ earlier ∈ before, earlier.verdict? = none) ∧ item.verdict? = some verdict := by
  rw [verdict?, List.findSome?_eq_some_iff]
  constructor
  · rintro ⟨before, item, behind, split, decided, undecided⟩
    exact ⟨before, item, behind, split, undecided, decided⟩
  · rintro ⟨before, item, behind, split, undecided, decided⟩
    exact ⟨before, item, behind, split, decided, undecided⟩

theorem path?_eq_none_iff {items : List Item} :
    path? items = none ↔ ∀ path, Item.program path ∉ items := by
  rw [path?, List.getLast?_eq_none_iff, List.filterMap_eq_nil_iff]
  constructor
  · intro unnamed path member
    cases unnamed _ member
  · intro unnamed item member
    cases item with
    | program path => exact absurd member (unnamed path)
    | _ => rfl

/-- The last program file that is named counts. -/
theorem path?_eq_some_iff {items : List Item} {path : String} :
    path? items = some path ↔ ∃ before behind, items = before ++ .program path :: behind ∧
      ∀ other, Item.program other ∉ behind := by
  induction items with
  | nil => simp [path?]
  | cons item rest ih =>
      rw [path?_cons]
      constructor
      · intro named
        cases later : path? rest with
        | some other =>
            obtain rfl : other = path := by simpa [later] using named
            obtain ⟨before, behind, rfl, last⟩ := ih.mp later
            exact ⟨item :: before, behind, rfl, last⟩
        | none =>
            have here : item.path? = some path := by simpa [later] using named
            refine ⟨[], rest, ?_, path?_eq_none_iff.mp later⟩
            cases item <;> simp_all [Item.path?]
      · rintro ⟨before, behind, split, last⟩
        cases before with
        | nil =>
            obtain ⟨rfl, rfl⟩ : item = .program path ∧ rest = behind := by simpa using split
            rw [path?_eq_none_iff.mpr last]
            rfl
        | cons first before =>
            obtain ⟨rfl, rfl⟩ := List.cons_eq_cons.mp split
            rw [ih.mpr ⟨before, behind, rfl, last⟩]
            rfl

/-- A line of arguments is cut into items in one way. The first item that decides anything, be it a
call for help, an option for a program file without its value or an unknown option, decides alone.
If there is none, the line asks for a run: for each dump and for the listing exactly if an item does,
and for the program file that the last item with one names. -/
theorem read_follows_items (arguments : List String) :
    ∃ items, (∀ other, Itemised arguments other ↔ other = items) ∧
      (∀ before item behind verdict, items = before ++ item :: behind →
        (∀ earlier ∈ before, earlier.verdict? = none) → item.verdict? = some verdict →
          (read arguments).request = verdict) ∧
      ((∀ item ∈ items, item.verdict? = none) → ∃ options,
        (read arguments).request = .ok (.run options) ∧
          (options.decision = true ↔ .decision ∈ items) ∧
          (options.control = true ↔ .control ∈ items) ∧
          (options.verbose = true ↔ .verbose ∈ items) ∧
          ∀ path, options.program = some path ↔ ∃ before behind,
            items = before ++ .program path :: behind ∧ ∀ other, Item.program other ∉ behind) := by
  refine ⟨Item.ofArguments arguments, fun _ => itemised_iff, ?_, ?_⟩
  · intro before item behind verdict split undecided decided
    have first := verdict?_eq_some_iff.mpr ⟨before, item, behind, split, undecided, decided⟩
    rw [read_items, first]
    rfl
  · intro undecided
    have none : verdict? (Item.ofArguments arguments) = none := by
      rw [verdict?, List.findSome?_eq_none_iff]
      exact undecided
    refine ⟨.ofItems (Item.ofArguments arguments), ?_, ?_, ?_, ?_, fun _ => path?_eq_some_iff⟩
    · rw [read_items, none]
      rfl
    · simp [Options.ofItems]
    · simp [Options.ofItems]
    · simp [Options.ofItems]

/-- A value is not looked at, and a call for help counts before an unknown option behind it. -/
example : (read ["-p", "-h", "decision", "--help", "-x"]).request = .ok .help := rfl

end ControlStore.CommandLine
