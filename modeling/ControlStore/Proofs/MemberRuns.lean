import ControlStore.Document.Parts
import ControlStore.Proofs.DocumentOrder
import Mathlib.Data.List.Nodup

set_option autoImplicit false

/-!
Readers of members take a step for each member. A whole run of steps leaves of a field its one
value, and of a map of names the last value of every name; so what is read of a part is what its
fields give.
-/
namespace ControlStore.Document

open Json (Tree Elements Members Text)

/-! ### Runs of steps -/

section Runs

variable {σ τ : Type}

/-- A run takes a step for each entry. -/
inductive Steps (Step : σ → String → Tree → σ → Prop) : σ → List (String × Tree) → σ → Prop where
  | nil {held : σ} : Steps Step held [] held
  | cons {held next last : σ} {name : String} {tree : Tree} {rest : List (String × Tree)} :
      Step held name tree next → Steps Step next rest last →
      Steps Step held ((name, tree) :: rest) last

variable {Step : σ → String → Tree → σ → Prop} {finish : σ → Except Fault τ}
  {read : σ → Members → Except Fault τ}

theorem steps_nil_iff {held last : σ} : Steps Step held [] last ↔ last = held := by
  constructor
  · rintro ⟨⟩
    rfl
  · rintro rfl
    exact .nil

theorem steps_cons_iff {held last : σ} {entry : String × Tree} {rest : List (String × Tree)} :
    Steps Step held (entry :: rest) last ↔
      ∃ next, Step held entry.1 entry.2 next ∧ Steps Step next rest last := by
  constructor
  · intro steps
    cases steps with
    | cons step behind => exact ⟨_, step, behind⟩
  · rintro ⟨next, step, behind⟩
    exact .cons step behind

theorem mapFault?_eq_none_iff {ending : Json.Ending} :
    ending.mapFault? = none ↔ ending = .closed := by
  cases ending <;> simp [Json.Ending.mapFault?]

/-- A reader of members succeeds by a run over all of them. -/
theorem MemberReader.eq_ok_iff (reader : MemberReader Step finish read) (held : σ)
    {members : Members} {result : τ} :
    read held members = .ok result ↔
      ∃ entries last, Named members entries ∧ Steps Step held entries last ∧
        finish last = .ok result := by
  cases members with
  | done ending =>
      rw [reader.done, bind_eq_ok_iff]
      simp only [check_eq_ok_iff, mapFault?_eq_none_iff]
      constructor
      · rintro ⟨_, rfl, finished⟩
        exact ⟨[], held, .done, .nil, finished⟩
      · rintro ⟨_, _, ⟨⟩, ⟨⟩, finished⟩
        exact ⟨(), rfl, finished⟩
  | entry key tree rest =>
      rw [reader.entry]
      constructor
      · rintro ⟨name, next, named, step, behind⟩
        obtain ⟨entries, last, names, steps, finished⟩ := (reader.eq_ok_iff _).mp behind
        exact ⟨_, last, .entry named names, .cons step steps, finished⟩
      · rintro ⟨_, last, names, steps, finished⟩
        cases names with
        | entry named names =>
            obtain ⟨next, step, behind⟩ := steps_cons_iff.mp steps
            have later := (reader.eq_ok_iff _).mpr ⟨_, last, names, behind, finished⟩
            exact ⟨_, next, named, step, later⟩

variable {υ : Type} {First : σ → String → Tree → σ → Prop} {Second : υ → String → Tree → υ → Prop}

/-- Two things are held, and every member takes a step of each. -/
def Beside (First : σ → String → Tree → σ → Prop) (Second : υ → String → Tree → υ → Prop)
    (held : σ × υ) (name : String) (tree : Tree) (next : σ × υ) : Prop :=
  First held.1 name tree next.1 ∧ Second held.2 name tree next.2

theorem steps_beside_iff {held last : σ × υ} {entries : List (String × Tree)} :
    Steps (Beside First Second) held entries last ↔
      Steps First held.1 entries last.1 ∧ Steps Second held.2 entries last.2 := by
  induction entries generalizing held with
  | nil =>
      simp only [steps_nil_iff]
      exact Prod.ext_iff
  | cons entry rest ih =>
      simp only [steps_cons_iff, ih]
      constructor
      · rintro ⟨next, ⟨first, second⟩, behind, behind'⟩
        exact ⟨⟨_, first, behind⟩, _, second, behind'⟩
      · rintro ⟨⟨one, first, behind⟩, two, second, behind'⟩
        exact ⟨(one, two), ⟨first, second⟩, behind, behind'⟩

/-- Only some members may take a step. -/
def Among (Allowed : String → Tree → Prop) (Step : σ → String → Tree → σ → Prop) (held : σ)
    (name : String) (tree : Tree) (next : σ) : Prop :=
  Allowed name tree ∧ Step held name tree next

theorem steps_among_iff {Allowed : String → Tree → Prop} {held last : σ}
    {entries : List (String × Tree)} :
    Steps (Among Allowed Step) held entries last ↔
      (∀ entry ∈ entries, Allowed entry.1 entry.2) ∧ Steps Step held entries last := by
  induction entries generalizing held with
  | nil => simp [steps_nil_iff]
  | cons entry rest ih =>
      simp only [steps_cons_iff, List.forall_mem_cons, ih]
      constructor
      · rintro ⟨next, ⟨allowed, step⟩, others, behind⟩
        exact ⟨⟨allowed, others⟩, next, step, behind⟩
      · rintro ⟨⟨allowed, others⟩, next, step, behind⟩
        exact ⟨next, ⟨allowed, step⟩, others, behind⟩

theorem steps_congr {Step' : σ → String → Tree → σ → Prop}
    (same : ∀ held name tree next, Step held name tree next ↔ Step' held name tree next)
    {held last : σ} {entries : List (String × Tree)} :
    Steps Step held entries last ↔ Steps Step' held entries last := by
  induction entries generalizing held with
  | nil => simp only [steps_nil_iff]
  | cons entry rest ih => simp only [steps_cons_iff, same, ih]

end Runs

/-! ### Maps of names -/

variable {α : Type} {read : Tree → Except Fault α} {Gives : Tree → α → Prop}

/-- What is read of a tree is exactly what the tree gives. -/
def Exact (read : Tree → Except Fault α) (Gives : Tree → α → Prop) : Prop :=
  ∀ tree value, read tree = .ok value ↔ Gives tree value

/-- Behind a run over the entries of a map the last value of a name is its value. -/
theorem Steps.find?_eq {held last : NameMap α} {entries : List (String × Tree)}
    (steps : Steps (EntryStep read) held entries last) (name : String) :
    last.find? name = match entries.reverse.lookup name with
      | some tree => (read tree).toOption
      | none => held.find? name := by
  induction steps with
  | nil => rfl
  | @cons held next last key tree rest step _ ih =>
      obtain ⟨valued⟩ := step
      rw [ih, List.reverse_cons, List.lookup_append]
      cases found : rest.reverse.lookup name with
      | some other => rfl
      | none =>
          rw [NameMap.find?_insert, Option.none_or, List.lookup_cons, List.lookup_nil]
          by_cases same : key = name
          · subst same
            simp [valued, Except.toOption]
          · have differ : (name == key) = false := beq_eq_false_iff_ne.mpr (Ne.symm same)
            rw [if_neg same, differ]

theorem exists_steps_entry {entries : List (String × Tree)} (held : NameMap α) :
    (∃ last, Steps (EntryStep read) held entries last) ↔
      ∀ entry ∈ entries, ∃ value, read entry.2 = .ok value := by
  induction entries generalizing held with
  | nil => exact iff_of_true ⟨held, .nil⟩ (by simp)
  | cons entry rest ih =>
      rw [List.forall_mem_cons]
      constructor
      · rintro ⟨last, steps⟩
        obtain ⟨_, ⟨valued⟩, behind⟩ := steps_cons_iff.mp steps
        exact ⟨⟨_, valued⟩, (ih _).mp ⟨last, behind⟩⟩
      · rintro ⟨⟨value, valued⟩, others⟩
        obtain ⟨last, steps⟩ := (ih (held.insert entry.1 value)).mpr others
        exact ⟨last, .cons (.insert valued) steps⟩

theorem readMap_exact (exact : Exact read Gives) : Exact (readMap read) (MapOf Gives) := by
  intro tree map
  have valued {entries : List (String × Tree)} :
      (∀ entry ∈ entries, ∃ value, read entry.2 = .ok value) ↔
        ∀ entry ∈ entries, ∃ value, Gives entry.2 value := by
    simp only [exact _ _]
  have found {entries : List (String × Tree)} {last : NameMap α}
      (steps : Steps (EntryStep read) .empty entries last) (name : String) (value : α) :
      last.find? name = some value ↔
        ∃ tree, entries.reverse.lookup name = some tree ∧ Gives tree value := by
    rw [steps.find?_eq]
    cases entries.reverse.lookup name with
    | none => simp [NameMap.find?, NameMap.empty]
    | some tree => simp [toOption_eq_some_iff, exact _ _]
  constructor
  · intro success
    cases tree with
    | map members =>
        obtain ⟨entries, last, names, steps, same⟩ :=
          ((readEntries_reader read).eq_ok_iff _).mp success
        cases same
        exact .entries names (valued.mp ((exists_steps_entry _).mp ⟨map, steps⟩)) (found steps)
    | _ => exact absurd success refuse_ne_ok
  · rintro ⟨names, given, values⟩
    obtain ⟨last, steps⟩ := (exists_steps_entry .empty).mpr (valued.mpr given)
    have same : last = map := NameMap.eq_of_find? fun name =>
      Option.ext fun value => (found steps name value).trans (values name value).symm
    exact ((readEntries_reader read).eq_ok_iff _).mpr ⟨_, last, names, steps, congrArg _ same⟩

/-! ### Lists -/

theorem listFault?_eq_none_iff {ending : Json.Ending} :
    ending.listFault? = none ↔ ending = .closed := by
  cases ending <;> simp [Json.Ending.listFault?]

theorem listed_nil_iff {elements : Elements} : Listed elements [] ↔ elements = .done .closed := by
  constructor
  · rintro ⟨⟩
    rfl
  · rintro rfl
    exact .done

theorem listed_cons_iff {elements : Elements} {tree : Tree} {trees : List Tree} :
    Listed elements (tree :: trees) ↔ ∃ rest, elements = .item tree rest ∧ Listed rest trees := by
  constructor
  · rintro ⟨⟩
    exact ⟨_, rfl, ‹_›⟩
  · rintro ⟨rest, rfl, listed⟩
    exact .item listed

theorem readItems_eq_ok_iff (exact : Exact read Gives) {elements : Elements} {values : List α} :
    readItems read elements = .ok values ↔
      ∃ trees, Listed elements trees ∧ List.Forall₂ Gives trees values := by
  cases elements with
  | done ending =>
      rw [readItems, bind_eq_ok_iff]
      simp only [check_eq_ok_iff, listFault?_eq_none_iff]
      constructor
      · rintro ⟨_, rfl, same⟩
        cases same
        exact ⟨[], .done, .nil⟩
      · rintro ⟨_, ⟨⟩, all⟩
        cases all
        exact ⟨(), rfl, rfl⟩
  | item tree rest =>
      rw [readItems, bind_eq_ok_iff]
      constructor
      · rintro ⟨value, valued, later⟩
        obtain ⟨others, behind, same⟩ := bind_eq_ok_iff.mp later
        cases same
        obtain ⟨trees, listed, all⟩ := (readItems_eq_ok_iff exact).mp behind
        exact ⟨tree :: trees, .item listed, .cons ((exact _ _).mp valued) all⟩
      · rintro ⟨_, listed, all⟩
        cases listed with
        | item listed =>
            cases all with
            | cons here all =>
                have behind := (readItems_eq_ok_iff exact).mpr ⟨_, listed, all⟩
                exact ⟨_, (exact _ _).mpr here, bind_eq_ok_iff.mpr ⟨_, behind, rfl⟩⟩

theorem readList_exact (exact : Exact read Gives) : Exact (readList read) (ListOf Gives) := by
  intro tree values
  constructor
  · intro success
    cases tree with
    | list elements =>
        obtain ⟨trees, listed, all⟩ := (readItems_eq_ok_iff exact).mp success
        exact .elements listed all
    | _ => exact absurd success refuse_ne_ok
  · rintro ⟨listed, all⟩
    exact (readItems_eq_ok_iff exact).mpr ⟨_, listed, all⟩

/-! ### Fields -/

/-- What a member does to one of the fields: it gives the field, which was not given, or it is for
another. -/
inductive FieldStep (field : String) (read : Tree → Except Fault α) (held : Option α)
    (name : String) (tree : Tree) : Option α → Prop where
  | given {value : α} : name = field → held = none → read tree = .ok value →
      FieldStep field read held name tree (some value)
  | other : name ≠ field → FieldStep field read held name tree held

section

variable {field : String} {held next : Option α} {tree : Tree}

theorem fieldStep_given : FieldStep field read held field tree next ↔
    held = none ∧ ∃ value, read tree = .ok value ∧ next = some value := by
  constructor
  · intro step
    cases step with
    | given _ absent valued => exact ⟨absent, _, valued, rfl⟩
    | other differ => exact absurd rfl differ
  · rintro ⟨absent, value, valued, rfl⟩
    exact .given rfl absent valued

theorem fieldStep_other {name : String} (differ : name ≠ field) :
    FieldStep field read held name tree next ↔ next = held := by
  constructor
  · intro step
    cases step with
    | given same => exact absurd same differ
    | other _ => rfl
  · rintro rfl
    exact .other differ

end

variable {field : String} {entries : List (String × Tree)} {last : Option α}

theorem steps_field_some {value : α} :
    Steps (FieldStep field read) (some value) entries last ↔
      field ∉ entries.map (·.1) ∧ last = some value := by
  induction entries with
  | nil => rw [steps_nil_iff, List.map_nil, iff_true_intro List.not_mem_nil, true_and]
  | cons entry rest ih =>
      rw [steps_cons_iff, List.map_cons, List.mem_cons, not_or, and_assoc, ← ih]
      constructor
      · rintro ⟨next, step, behind⟩
        cases step with
        | given _ impossible => cases impossible
        | other differ => exact ⟨Ne.symm differ, behind⟩
      · rintro ⟨differ, behind⟩
        exact ⟨_, .other (Ne.symm differ), behind⟩

/-- A field is given at most once, and read where it is given. -/
theorem steps_field_none :
    Steps (FieldStep field read) none entries last ↔
      (entries.map (·.1)).count field ≤ 1 ∧ (entries.lookup field).map read = last.map .ok := by
  induction entries with
  | nil => cases last <;> simp [steps_nil_iff]
  | cons entry rest ih =>
      obtain ⟨name, tree⟩ := entry
      rw [steps_cons_iff, List.map_cons, List.count_cons]
      by_cases here : name = field
      · -- The field is given here, so no member behind may give it.
        subst here
        have once : (rest.map (·.1)).count name + 1 ≤ 1 ↔ name ∉ rest.map (·.1) := by
          rw [← List.count_eq_zero]
          omega
        rw [List.lookup_cons_self, if_pos (beq_self_eq_true name), once, Option.map_some]
        constructor
        · rintro ⟨next, step, behind⟩
          obtain ⟨-, value, valued, rfl⟩ := fieldStep_given.mp step
          obtain ⟨fresh, rfl⟩ := steps_field_some.mp behind
          exact ⟨fresh, congrArg some valued⟩
        · rintro ⟨fresh, same⟩
          cases last with
          | none => cases same
          | some value =>
              exact ⟨some value, .given rfl rfl (Option.some.inj same),
                steps_field_some.mpr ⟨fresh, rfl⟩⟩
      · have differ : (field == name) = false := beq_eq_false_iff_ne.mpr (Ne.symm here)
        have passed : ¬ (name == field) = true := by simpa using here
        rw [List.lookup_cons, differ, if_neg passed, Nat.add_zero, ← ih]
        simp only [fieldStep_other here, exists_eq_left]

/-- Names of fields are distinct if no field is given twice. -/
theorem nodup_fields_iff {part : Expected} :
    ((entries.map (·.1)).Nodup ∧ ∀ entry ∈ entries, entry.1 ∈ part.fields) ↔
      (∀ entry ∈ entries, entry.1 ∈ part.fields) ∧
        ∀ field ∈ part.fields, (entries.map (·.1)).count field ≤ 1 := by
  rw [List.nodup_iff_count_le_one, and_comm]
  refine and_congr_right fun known => ⟨fun single field _ => single field, fun single name => ?_⟩
  by_cases given : name ∈ entries.map (·.1)
  · obtain ⟨entry, member, rfl⟩ := List.mem_map.mp given
    exact single entry.1 (known entry member)
  · rw [List.count_eq_zero.mpr given]
    exact Nat.zero_le 1

theorem requiredField_some {tree : Tree} {value : α} :
    RequiredField Gives (some tree) value ↔ Gives tree value := by
  constructor
  · rintro ⟨here⟩
    exact here
  · exact .given

theorem RequiredField.exists_some {field : Option Tree} {value : α}
    (given : RequiredField Gives field value) : ∃ tree, field = some tree ∧ Gives tree value := by
  cases given with
  | given here => exact ⟨_, rfl, here⟩

theorem optionalField_none {absent value : α} :
    OptionalField absent Gives none value ↔ value = absent := by
  constructor
  · rintro ⟨⟩
    rfl
  · rintro rfl
    exact .absent

theorem optionalField_some {absent value : α} {tree : Tree} :
    OptionalField absent Gives (some tree) value ↔ Gives tree value := by
  constructor
  · intro given
    cases given with
    | given here => exact here
  · exact .given

/-- What is read of a field, and what a part without the field has. -/
theorem optionalField_iff (exact : Exact read Gives) {absent : α} {field : Option Tree}
    {value : α} : OptionalField absent Gives field value ↔
      ∃ held : Option α, field.map read = held.map .ok ∧ held.getD absent = value := by
  cases field with
  | none =>
      rw [optionalField_none]
      constructor
      · rintro rfl
        exact ⟨none, rfl, rfl⟩
      · rintro ⟨held, nothing, rfl⟩
        obtain rfl : held = none := by simpa using nothing.symm
        rfl
  | some tree =>
      rw [optionalField_some, ← exact]
      constructor
      · exact fun found => ⟨some value, congrArg some found, rfl⟩
      · rintro ⟨_ | held, found, rfl⟩
        · cases found
        · exact Option.some.inj found

theorem requiredField_iff (exact : Exact read Gives) {field : Option Tree} {value : α} :
    RequiredField Gives field value ↔ field.map read = some (.ok value) := by
  rw [Option.map_eq_some_iff]
  simp only [exact _ _]
  constructor
  · exact RequiredField.exists_some
  · rintro ⟨tree, rfl, here⟩
    exact .given here

theorem need_eq_ok_iff {name : String} {held : Option α} {value : α} :
    need name held = .ok value ↔ held = some value := by
  cases held <;> simp [need]

/-! ### Fields of lists -/

/-- What is read of a field of a list: of its element, or where it is left out. -/
def readElement (read : Tree → Except Fault α) (absent : Except Fault α) :
    Option Tree → Except Fault α
  | some tree => read tree
  | none => absent

theorem readElement_optional (exact : Exact read Gives) {absent : α} {field : Option Tree}
    {value : α} : readElement read (.ok absent) field = .ok value ↔
      OptionalField absent Gives field value := by
  cases field with
  | none => rw [readElement, optionalField_none, Except.ok.injEq, eq_comm]
  | some tree => rw [readElement, optionalField_some, exact]

theorem readElement_required (exact : Exact read Gives) {fault : Fault} {field : Option Tree}
    {value : α} : readElement read (.error fault) field = .ok value ↔
      RequiredField Gives field value := by
  cases field with
  | none => exact iff_of_false nofun nofun
  | some tree => rw [readElement, requiredField_some, exact]

/-- A field of a list is read of its first element, and the others stand behind. -/
theorem nextField_listed_iff {absent : Except Fault α} {elements : Elements} {value : α}
    {others : List Tree} :
    (∃ rest, nextField read absent elements = .ok (value, rest) ∧ Listed rest others) ↔
      ∃ trees, Listed elements trees ∧ trees.tail = others ∧
        readElement read absent trees.head? = .ok value := by
  simp only [nextField_eq_ok_iff]
  constructor
  · rintro ⟨rest, ⟨tree, rfl, found⟩ | ⟨rfl, rfl, found⟩, listed⟩
    · exact ⟨tree :: others, .item listed, rfl, found⟩
    · cases listed
      exact ⟨[], .done, rfl, found⟩
  · rintro ⟨trees, listed, rfl, found⟩
    cases listed with
    | done => exact ⟨_, .inr ⟨rfl, rfl, found⟩, .done⟩
    | item listed => exact ⟨_, .inl ⟨_, rfl, found⟩, listed⟩

theorem endFault?_listed_iff {elements : Elements} :
    elements.endFault? = none ↔ Listed elements [] :=
  endFault?_eq_none_iff.trans listed_nil_iff.symm

end ControlStore.Document
