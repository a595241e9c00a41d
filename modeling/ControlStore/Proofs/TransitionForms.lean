import ControlStore.Document.Form

set_option autoImplicit false

/-!
Which values are transitions, and which ones. A value is read as the transition that its form gives,
so a bad value is told apart by its form alone.
-/
namespace ControlStore

theorem mapM_eq_some_iff {α β : Type} {f : α → Option β} {Gives : α → β → Prop}
    (gives : ∀ {item : α} {content : β}, f item = some content ↔ Gives item content)
    {items : List α} {contents : List β} :
    items.mapM f = some contents ↔ List.Forall₂ Gives items contents := by
  induction items generalizing contents with
  | nil => simp [eq_comm]
  | cons item rest ih =>
      simp only [List.mapM_cons, Option.bind_eq_bind, Option.pure_def, Option.bind_eq_some_iff,
        Option.some.injEq, gives, ih]
      constructor
      · rintro ⟨content, here, others, behind, rfl⟩
        exact .cons here behind
      · intro all
        cases all with
        | cons here behind => exact ⟨_, here, _, behind, rfl⟩

/-! ### Parts -/

variable {value : Json.Value}

theorem text?_eq_some_iff {content : String} :
    value.text? = some content ↔ value = .text content := by
  cases value <;> simp [Json.Value.text?]

theorem flag?_eq_some_iff {on : Bool} : value.flag? = some on ↔ value = .flag on := by
  cases value <;> simp [Json.Value.flag?]

theorem texts?_eq_some_iff {symbols : List String} :
    value.texts? = some symbols ↔ value = .list (symbols.map .text) := by
  cases value with
  | list items =>
      rw [Json.Value.texts?, mapM_eq_some_iff text?_eq_some_iff, Json.Value.list.injEq,
        ← List.forall₂_eq_eq_eq, List.forall₂_map_right_iff]
  | _ => simp [Json.Value.texts?]

theorem optionalPart?_eq_some_iff {α : Type} {read : Json.Value → Option α}
    {Gives : Json.Value → α → Prop}
    (gives : ∀ value content, read value = some content ↔ Gives value content)
    (refused : read .null = none) {part : Option Json.Value} {content : Option α} :
    optionalPart? read part = some content ↔ OptionalPart Gives part content := by
  rcases part with _ | value
  · constructor
    · rintro ⟨⟩
      exact .absent
    · rintro ⟨⟩
      rfl
  · by_cases null : value = .null
    · subst null
      constructor
      · rintro ⟨⟩
        exact .null
      · intro part
        cases part with
        | null => rfl
        | given here => cases refused.symm.trans ((gives _ _).mpr here)
    · rw [optionalPart?.eq_3 _ _ null, Option.map_eq_some_iff]
      constructor
      · rintro ⟨content, found, rfl⟩
        exact .given ((gives _ _).mp found)
      · intro part
        cases part with
        | null => exact absurd rfl null
        | given here => exact ⟨_, (gives _ _).mpr here, rfl⟩

/-- Of a repeated key the last member is found first from behind. -/
theorem member?_eq_lookup (members : List (String × Json.Value)) (name : String) :
    Json.Value.member? members name = members.reverse.lookup name := by
  rw [Json.Value.member?]
  induction members.reverse with
  | nil => rfl
  | cons member rest ih =>
      rw [List.find?_cons, List.lookup_cons, Bool.beq_comm]
      cases name == member.1 with
      | true => rfl
      | false => exact ih

/-! ### Clauses -/

theorem ofParts?_eq_some_iff {opcodes zero negative target : Option Json.Value} {clause : Clause} :
    Clause.ofParts? opcodes zero negative target = some clause ↔
      ClauseParts clause opcodes zero negative target := by
  have texts {part : Option Json.Value} {symbols : Option (List String)} :
      optionalPart? (·.texts?) part = some symbols ↔
        OptionalPart (fun value symbols => value = .list (symbols.map .text)) part symbols :=
    optionalPart?_eq_some_iff (fun _ _ => texts?_eq_some_iff) rfl
  have flag {part : Option Json.Value} {on : Option Bool} :
      optionalPart? (·.flag?) part = some on ↔
        OptionalPart (fun value on => value = .flag on) part on :=
    optionalPart?_eq_some_iff (fun _ _ => flag?_eq_some_iff) rfl
  have named {content : String} :
      target.bind (·.text?) = some content ↔ target = some (.text content) := by
    simp [Option.bind_eq_some_iff, text?_eq_some_iff]
  simp only [Clause.ofParts?, Option.bind_eq_bind, Option.pure_def, Option.bind_eq_some_iff, texts,
    flag, named]
  constructor
  · rintro ⟨_, opcodes, _, zero, _, negative, _, target, ⟨⟩⟩
    exact ⟨opcodes, zero, negative, target⟩
  · rintro ⟨opcodes, zero, negative, target⟩
    exact ⟨_, opcodes, _, zero, _, negative, _, target, rfl⟩

/-- A value is read as the clause that it gives. -/
theorem ofJson?_eq_some_iff_clauseOf {clause : Clause} :
    Clause.ofJson? value = some clause ↔ ClauseOf value clause := by
  fun_cases Clause.ofJson? value with
  | case1 members known part =>
      have keys : ∀ member ∈ members, member.1 ∈ Clause.parts := by simpa using known
      simp only [ofParts?_eq_some_iff, part, member?_eq_lookup]
      constructor
      · exact .map keys
      · intro given
        cases given with
        | map _ parts => exact parts
  | case2 members unknown =>
      have unknown : ¬ ∀ member ∈ members, member.1 ∈ Clause.parts := by simpa using unknown
      constructor
      · rintro ⟨⟩
      · intro given
        cases given with
        | map keys => exact absurd keys unknown
  | case3 opcodes zero negative target =>
      rw [ofParts?_eq_some_iff]
      constructor
      · exact .list
      · intro given
        cases given with
        | list parts => exact parts
  | case4 value noMap noList =>
      constructor
      · rintro ⟨⟩
      · intro given
        cases given with
        | map => exact absurd rfl (noMap _)
        | list => exact absurd rfl (noList _ _ _ _)

/-! ### Transitions -/

/-- A value is read as the transition that it gives. -/
theorem ofJson?_eq_some_iff_transitionOf {transition : Transition} :
    Transition.ofJson? value = some transition ↔ TransitionOf value transition := by
  fun_cases Transition.ofJson? value with
  | case1 target =>
      constructor
      · rintro ⟨⟩
        exact .always target
      · rintro ⟨⟩
        rfl
  | case2 items =>
      rw [Option.map_eq_map, Option.map_eq_some_iff]
      simp only [mapM_eq_some_iff ofJson?_eq_some_iff_clauseOf]
      constructor
      · rintro ⟨clauses, all, rfl⟩
        exact .guarded all
      · intro given
        cases given with
        | guarded all => exact ⟨_, all, rfl⟩
  | case3 value noText noList =>
      constructor
      · rintro ⟨⟩
      · intro given
        cases given with
        | always => exact absurd rfl (noText _)
        | guarded => exact absurd rfl (noList _)

theorem exists_forall₂_iff {α β : Type} {Gives : α → β → Prop} {items : List α} :
    (∃ contents, List.Forall₂ Gives items contents) ↔
      ∀ item ∈ items, ∃ content, Gives item content := by
  induction items with
  | nil => exact iff_of_true ⟨[], .nil⟩ (by simp)
  | cons item rest ih =>
      rw [List.forall_mem_cons, ← ih]
      constructor
      · rintro ⟨_, all⟩
        cases all with
        | cons here behind => exact ⟨⟨_, here⟩, _, behind⟩
      · rintro ⟨⟨content, here⟩, contents, behind⟩
        exact ⟨content :: contents, .cons here behind⟩

/-- Exactly texts and lists of clauses give transitions. -/
theorem noTransition_iff {given : Option Json.Value} :
    NoTransition given ↔
      ∀ value, given = some value → ∀ transition, ¬ TransitionOf value transition := by
  constructor
  · intro bad value same transition good
    subst same
    cases good with
    | always target =>
        cases bad with
        | unusable noText => exact noText target rfl
    | guarded all =>
        cases bad with
        | unusable _ badItem =>
            obtain ⟨item, member, none⟩ := badItem _ rfl
            obtain ⟨clause, gives⟩ := exists_forall₂_iff.mp ⟨_, all⟩ item member
            exact none clause gives
  · intro none
    cases given with
    | none => exact .absent
    | some value =>
        refine .unusable ?_ ?_
        · rintro target rfl
          exact none _ rfl _ (.always target)
        · rintro items rfl
          by_contra clauses
          push Not at clauses
          obtain ⟨_, all⟩ := exists_forall₂_iff.mpr clauses
          exact none _ rfl _ (.guarded all)

/-- What is given for a transition is read as the transition that it gives, or as none. -/
theorem bind_ofJson?_eq_iff {given : Option Json.Value} {next : Option Transition} :
    given.bind Transition.ofJson? = next ↔ NextOf given next := by
  cases next with
  | some transition =>
      rw [Option.bind_eq_some_iff]
      simp only [ofJson?_eq_some_iff_transitionOf]
      constructor
      · rintro ⟨value, rfl, gives⟩
        exact .transition gives
      · intro meant
        cases meant with
        | transition gives => exact ⟨_, rfl, gives⟩
  | none =>
      have none : NextOf given none ↔ NoTransition given := by
        constructor
        · intro meant
          cases meant with
          | nothing bad => exact bad
        · exact .nothing
      rw [none, noTransition_iff, Option.bind_eq_none_iff]
      simp only [Option.eq_none_iff_forall_ne_some, ne_eq, ofJson?_eq_some_iff_transitionOf]

theorem NextOf.unique {given : Option Json.Value} {next other : Option Transition}
    (here : NextOf given next) (there : NextOf given other) : next = other :=
  (bind_ofJson?_eq_iff.mpr here).symm.trans (bind_ofJson?_eq_iff.mpr there)

theorem NextOf.eq_none_iff {given : Option Json.Value} {next : Option Transition}
    (meant : NextOf given next) : next = none ↔ NoTransition given := by
  constructor
  · rintro rfl
    cases meant with
    | nothing bad => exact bad
  · exact fun bad => meant.unique (.nothing bad)

end ControlStore
