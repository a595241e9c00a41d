import ControlStore.CommandLine.Item
import Mathlib.Tactic.SplitIfs

set_option autoImplicit false

/-!
Reading arguments one by one is reading their items: options are gathered until an item decides, and
what stands behind that item is not looked at.
-/
namespace ControlStore.CommandLine

/-- The options behind an item. -/
def Options.after (options : Options) : Item → Options
  | .decision => { options with decision := true }
  | .control => { options with control := true }
  | .verbose => { options with verbose := true }
  | .program path => { options with program := some path }
  | _ => options

/-- The number of ignored items before the first that decides. -/
def ignoredCount (items : List Item) : Nat :=
  (items.takeWhile (·.verdict?.isNone)).countP Item.isIgnored

/-- What items come to that are read behind others. -/
def Reading.ofItems (ignored : Nat) (options : Options) (items : List Item) : Reading where
  ignored := ignored + ignoredCount items
  request := (verdict? items).getD (.ok (.run (items.foldl Options.after options)))

theorem Reading.ofItems_cons (ignored : Nat) (options : Options) (item : Item)
    (rest : List Item) :
    ofItems ignored options (item :: rest) =
      match item.verdict? with
      | some verdict => ⟨ignored, verdict⟩
      | none => ofItems (ignored + item.isIgnored.toNat) (options.after item) rest := by
  unfold ofItems CommandLine.verdict? ignoredCount
  rw [List.findSome?_cons, List.takeWhile_cons]
  cases decided : item.verdict? with
  | some verdict => rfl
  | none =>
      have count : ignored + ((item :: rest.takeWhile (·.verdict?.isNone)).countP Item.isIgnored) =
          ignored + item.isIgnored.toNat +
            (rest.takeWhile (·.verdict?.isNone)).countP Item.isIgnored := by
        rw [List.countP_cons]
        cases item.isIgnored with
        | true =>
            rw [if_pos rfl, Bool.toNat_true]
            omega
        | false => rfl
      simp only [Option.isNone_none, if_true, List.foldl_cons, count]

/-- An argument that takes no value is read as its item. -/
theorem readFrom_ofArgument (ignored : Nat) (options : Options) {argument : String}
    (noValue : isProgram argument = false) (rest : List String) :
    readFrom ignored options (argument :: rest) =
      match (Item.ofArgument argument).verdict? with
      | some verdict => ⟨ignored, verdict⟩
      | none => readFrom (ignored + (Item.ofArgument argument).isIgnored.toNat)
          (options.after (Item.ofArgument argument)) rest := by
  rw [readFrom.eq_def]
  simp only [noValue, Bool.false_eq_true, if_false]
  unfold Item.ofArgument
  split_ifs <;> rfl

/-- An option for a program file takes the argument behind it unread. -/
theorem readFrom_program (ignored : Nat) (options : Options) {argument : String}
    (program : isProgram argument = true) (rest : List String) :
    readFrom ignored options (argument :: rest) =
      match rest with
      | [] => ⟨ignored, .error .missingValue⟩
      | path :: behind => readFrom ignored { options with program := some path } behind := by
  have spelled : argument = "-p" ∨ argument = "--program" := by
    simpa only [isProgram, Bool.or_eq_true, beq_iff_eq] using program
  rcases spelled with rfl | rfl
  · cases rest <;> rfl
  · cases rest <;> rfl

theorem readFrom_items (ignored : Nat) (options : Options) (arguments : List String) :
    readFrom ignored options arguments =
      .ofItems ignored options (Item.ofArguments arguments) := by
  fun_induction Item.ofArguments arguments generalizing ignored options with
  | case1 => rfl
  | case2 argument =>
      rw [Reading.ofItems_cons]
      cases program : isProgram argument with
      | true => exact readFrom_program ignored options program []
      | false => exact readFrom_ofArgument ignored options program []
  | case3 argument value rest program ih =>
      rw [Reading.ofItems_cons, readFrom_program ignored options program]
      exact ih ignored { options with program := some value }
  | case4 argument value rest noProgram ih =>
      rw [Reading.ofItems_cons, readFrom_ofArgument _ _ (by simpa using noProgram)]
      simp only [ih]

/-! ### Options -/

theorem path?_cons (item : Item) (rest : List Item) :
    path? (item :: rest) = (path? rest).or item.path? := by
  unfold path?
  cases named : item.path? with
  | none => rw [List.filterMap_cons_none named, Option.or_none]
  | some path =>
      rw [List.filterMap_cons_some named, List.getLast?_cons]
      cases (rest.filterMap Item.path?).getLast? <;> rfl

/-- Options that are gathered item by item are those that the items ask for. -/
theorem foldl_after (options : Options) (items : List Item) :
    items.foldl Options.after options =
      { decision := options.decision || .decision ∈ items
        control := options.control || .control ∈ items
        verbose := options.verbose || .verbose ∈ items
        program := (path? items).or options.program } := by
  induction items generalizing options with
  | nil => simp [path?]
  | cons item rest ih =>
      rw [List.foldl_cons, ih, path?_cons]
      cases item <;> simp [Options.after, Item.path?]

theorem foldl_after_none (items : List Item) :
    items.foldl Options.after .none = .ofItems items := by
  rw [foldl_after]
  simp [Options.none, Options.ofItems]

/-- Arguments are read as their items: the first item that decides anything decides alone, and if
none does, the items ask for a run. -/
theorem read_items (arguments : List String) :
    read arguments =
      { ignored := ignoredCount (Item.ofArguments arguments)
        request := (verdict? (Item.ofArguments arguments)).getD
          (.ok (.run (.ofItems (Item.ofArguments arguments)))) } := by
  rw [read, readFrom_items, Reading.ofItems, foldl_after_none, Nat.zero_add]

end ControlStore.CommandLine
