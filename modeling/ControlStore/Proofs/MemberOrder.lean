import ControlStore.Document.Read
import ControlStore.Document.Transition
import ControlStore.Json.Reordered
import ControlStore.Proofs.DocumentTexts
import Mathlib.Data.List.Forall2

set_option autoImplicit false

/-!
The order of members. It decides which value is made of a tree, but not what control values, clauses
and transitions are read from that value, because these ask for members by their names.
-/
namespace ControlStore

/-! ### Related options and lists -/

section Related

variable {α β : Type} {like : α → α → Prop}

theorem rel_refl (alike : ∀ item, like item item) (item : Option α) : Option.Rel like item item := by
  cases item with
  | none => exact .none
  | some item => exact .some (alike item)

theorem rel_trans (trans : ∀ {one two three}, like one two → like two three → like one three)
    {one two three : Option α} (first : Option.Rel like one two)
    (second : Option.Rel like two three) : Option.Rel like one three := by
  cases first with
  | none => exact second
  | some here =>
      cases second with
      | some there => exact .some (trans here there)

theorem rel_getD {item item' : Option α} (related : Option.Rel like item item') {fallback : α}
    (alike : like fallback fallback) : like (item.getD fallback) (item'.getD fallback) := by
  cases related with
  | none => exact alike
  | some here => exact here

theorem forall₂_trans (trans : ∀ {one two three}, like one two → like two three → like one three)
    {one two three : List α} (first : List.Forall₂ like one two)
    (second : List.Forall₂ like two three) : List.Forall₂ like one three := by
  induction first generalizing three with
  | nil => exact second
  | cons here _ ih =>
      cases second with
      | cons there behind => exact .cons (trans here there) (ih behind)

theorem bind_congr_rel {f : α → Option β} (same : ∀ item item', like item item' → f item' = f item)
    {item item' : Option α} (related : Option.Rel like item item') : item'.bind f = item.bind f := by
  cases related with
  | none => rfl
  | some here => exact same _ _ here

theorem any_congr_rel {p : α → Bool} (same : ∀ item item', like item item' → p item' = p item)
    {item item' : Option α} (related : Option.Rel like item item') : item'.any p = item.any p := by
  cases related with
  | none => rfl
  | some here => exact same _ _ here

theorem map_congr_forall₂ {f : α → β} (same : ∀ item item', like item item' → f item' = f item)
    {items items' : List α} (related : List.Forall₂ like items items') :
    items'.map f = items.map f := by
  induction related with
  | nil => rfl
  | cons here _ ih => rw [List.map_cons, List.map_cons, same _ _ here, ih]

theorem mapM_congr_forall₂ {f : α → Option β}
    (same : ∀ item item', like item item' → f item' = f item) {items items' : List α}
    (related : List.Forall₂ like items items') : items'.mapM f = items.mapM f := by
  induction related with
  | nil => rfl
  | cons here _ ih => rw [List.mapM_cons, List.mapM_cons, same _ _ here, ih]

end Related

namespace Json

/-! ### Values -/

/-- Values that are the same to every reader of a document. -/
structure Value.Interchangeable (first second : Value) : Prop where
  null : second = .null ↔ first = .null
  text : second.text? = first.text?
  flag : second.flag? = first.flag?
  texts : second.texts? = first.texts?
  control : Document.controlValue? second = Document.controlValue? first
  clause : Clause.ofJson? second = Clause.ofJson? first
  transition : Transition.ofJson? second = Transition.ofJson? first

open Json.Value (Interchangeable member?)

namespace Value.Interchangeable

theorem refl (value : Value) : Interchangeable value value :=
  ⟨Iff.rfl, rfl, rfl, rfl, rfl, rfl, rfl⟩

theorem trans {one two three : Value} (first : Interchangeable one two)
    (second : Interchangeable two three) : Interchangeable one three where
  null := second.null.trans first.null
  text := second.text.trans first.text
  flag := second.flag.trans first.flag
  texts := second.texts.trans first.texts
  control := second.control.trans first.control
  clause := second.clause.trans first.clause
  transition := second.transition.trans first.transition

theorem optionalPart? {α : Type} {read : Value → Option α}
    (same : ∀ value value', Interchangeable value value' → read value' = read value)
    {part part' : Option Value} (related : Option.Rel Interchangeable part part') :
    optionalPart? read part' = optionalPart? read part := by
  cases related with
  | none => rfl
  | @some value value' here =>
      by_cases null : value = .null
      · rw [null, here.null.mpr null]
      · rw [optionalPart?.eq_3 _ _ null, optionalPart?.eq_3 _ _ (mt here.null.mp null), same _ _ here]

/-- Clauses are read from interchangeable parts alike. -/
theorem ofParts? {opcodes opcodes' zero zero' negative negative' target target' : Option Value}
    (likeOpcodes : Option.Rel Interchangeable opcodes opcodes')
    (likeZero : Option.Rel Interchangeable zero zero')
    (likeNegative : Option.Rel Interchangeable negative negative')
    (likeTarget : Option.Rel Interchangeable target target') :
    Clause.ofParts? opcodes' zero' negative' target' =
      Clause.ofParts? opcodes zero negative target := by
  have named : target'.bind (·.text?) = target.bind (·.text?) :=
    bind_congr_rel (fun _ _ here => here.text) likeTarget
  rw [Clause.ofParts?, Clause.ofParts?, optionalPart? (fun _ _ => texts) likeOpcodes,
    optionalPart? (fun _ _ => flag) likeZero, optionalPart? (fun _ _ => flag) likeNegative, named]

theorem clause_list {items items' : List Value} (related : List.Forall₂ Interchangeable items items') :
    Clause.ofJson? (.list items') = Clause.ofJson? (.list items) := by
  rcases related with _ | ⟨opcodes, _ | ⟨zero, _ | ⟨negative, _ | ⟨target, _ | ⟨_, _⟩⟩⟩⟩⟩
  · rfl
  · rfl
  · rfl
  · rfl
  · exact ofParts? (.some opcodes) (.some zero) (.some negative) (.some target)
  · rfl

theorem list {items items' : List Value} (related : List.Forall₂ Interchangeable items items') :
    Interchangeable (.list items) (.list items') where
  null := ⟨nofun, nofun⟩
  text := rfl
  flag := rfl
  texts := mapM_congr_forall₂ (f := Value.text?) (fun _ _ here => here.text) related
  control := rfl
  clause := clause_list related
  transition := congrArg (Transition.guarded <$> ·)
    (mapM_congr_forall₂ (f := Clause.ofJson?) (fun _ _ here => here.clause) related)

end Value.Interchangeable

/-! ### Members -/

theorem Value.member?_cons (key : String) (value : Value) (members : List (String × Value))
    (name : String) : member? ((key, value) :: members) name =
      (member? members name).or (if key = name then some value else none) := by
  rw [member?, List.reverse_cons, List.find?_append, Option.map_or]
  by_cases here : key = name <;> simp [member?, here]

/-- Members of the same keys in which every name has interchangeable values. -/
structure LikeMembers (first second : List (String × Value)) : Prop where
  keys : ∀ known : String → Bool,
    second.all (fun member => known member.1) = first.all (fun member => known member.1)
  member : ∀ name, Option.Rel Interchangeable (member? first name) (member? second name)

namespace LikeMembers

theorem refl (members : List (String × Value)) : LikeMembers members members :=
  ⟨fun _ => rfl, fun _ => rel_refl .refl _⟩

theorem trans {one two three : List (String × Value)} (first : LikeMembers one two)
    (second : LikeMembers two three) : LikeMembers one three :=
  ⟨fun known => (second.keys known).trans (first.keys known),
    fun name => rel_trans .trans (first.member name) (second.member name)⟩

theorem cons {value value' : Value} {rest rest' : List (String × Value)} (key : String)
    (here : Interchangeable value value') (behind : LikeMembers rest rest') :
    LikeMembers ((key, value) :: rest) ((key, value') :: rest') := by
  refine ⟨fun known => ?_, fun name => ?_⟩
  · rw [List.all_cons, List.all_cons, behind.keys]
  · rw [Value.member?_cons, Value.member?_cons]
    refine or_like (behind.member name) ?_
    split
    · exact .some here
    · exact .none

/-- Two members of different names may change places. -/
theorem swap {first second : String} (differ : first ≠ second) (value other : Value)
    (rest : List (String × Value)) :
    LikeMembers ((first, value) :: (second, other) :: rest)
      ((second, other) :: (first, value) :: rest) := by
  refine ⟨fun known => ?_, fun name => ?_⟩
  · simp only [List.all_cons, Bool.and_left_comm]
  · have exchanged : member? ((second, other) :: (first, value) :: rest) name =
        member? ((first, value) :: (second, other) :: rest) name := by
      simp only [Value.member?_cons, Option.or_assoc]
      congr 1
      by_cases here : first = name
      · subst here
        simp [differ.symm]
      · simp [here]
    rw [exchanged]
    exact rel_refl .refl _

theorem map {members members' : List (String × Value)} (like : LikeMembers members members') :
    Interchangeable (.map members) (.map members') where
  null := ⟨nofun, nofun⟩
  text := rfl
  flag := rfl
  texts := rfl
  control := rfl
  clause := by
    rw [Clause.ofJson?, Clause.ofJson?, like.keys]
    dsimp only
    rw [Value.Interchangeable.ofParts? (like.member "opcodes") (like.member "zero")
      (like.member "negative") (like.member "state")]
  transition := rfl

end LikeMembers

/-! ### Trees -/

/-- What holds of equal trees, and of lists and maps if it holds of what is in them, holds of
reordered trees. -/
theorem Tree.Reordered.induct {motive : Tree → Tree → Prop} (same : ∀ tree, motive tree tree)
    (list : ∀ {elements elements'}, Elements.Reordered motive elements elements' →
      motive (.list elements) (.list elements'))
    (map : ∀ {members members'}, Members.Reordered motive members members' →
      motive (.map members) (.map members'))
    {tree tree' : Tree} (reordered : tree.Reordered tree') : motive tree tree' :=
  -- The relations of elements and members are nested in that of trees, so it takes the recursor.
  @Tree.Reordered.rec (fun tree tree' _ => motive tree tree')
    (fun elements elements' _ => Elements.Reordered motive elements elements')
    (fun members members' _ => Members.Reordered motive members members')
    same (fun _ inside => list inside) (fun _ inside => map inside)
    .done (fun _ _ here behind => .item here behind)
    .done (fun key _ _ _ _ _ _ here behind => .entry key here behind)
    (fun differ _ _ _ here there behind => .swap differ here there behind)
    (fun _ _ first second => .trans first second) _ _ reordered

/-- A tree whose value can be exchanged for that of another, and which is passed over no better. -/
structure Tree.Carried (tree tree' : Tree) : Prop where
  value : ∀ depth, Carries Interchangeable (tree.value depth) (tree'.value depth)
  skip : tree.skipFault? = none → tree'.skipFault? = none

theorem Tree.Carried.refl (tree : Tree) : tree.Carried tree :=
  ⟨fun _ => Carries.refl .refl _, id⟩

section Carried

variable {elements elements' : Elements} {members members' : Members}

theorem Elements.Reordered.values (reordered : Elements.Reordered Tree.Carried elements elements')
    (depth : Nat) : Carries (List.Forall₂ Interchangeable) (elements.values depth)
      (elements'.values depth) := by
  induction reordered with
  | done ending =>
      exact Carries.refl (fun values => List.forall₂_same.mpr fun value _ => .refl value) _
  | item here _ ih =>
      rw [Elements.values, Elements.values]
      refine (here.value depth).bind fun value value' like => ?_
      exact ih.map fun _ _ behind => .cons like behind

theorem Elements.Reordered.skip (reordered : Elements.Reordered Tree.Carried elements elements')
    (passed : elements.skipFault? = none) : elements'.skipFault? = none := by
  induction reordered with
  | done ending => exact passed
  | item here _ ih =>
      rw [Elements.skipFault?, Option.or_eq_none_iff] at passed ⊢
      exact ⟨here.skip passed.1, ih passed.2⟩

theorem Members.Reordered.values (reordered : Members.Reordered Tree.Carried members members')
    (depth : Nat) :
    Carries LikeMembers (members.values depth) (members'.values depth) := by
  induction reordered with
  | done ending => exact Carries.refl .refl _
  | entry key here _ ih =>
      intro values success
      obtain ⟨name, value, rest, named, valued, behind, rfl⟩ := values_entry_eq_ok_iff.mp success
      obtain ⟨value', valued', like⟩ := here.value depth value valued
      obtain ⟨rest', behind', likeRest⟩ := ih rest behind
      exact ⟨_, values_entry_eq_ok_iff.mpr ⟨name, value', rest', named, valued', behind', rfl⟩,
        likeRest.cons name like⟩
  | swap differ here there _ ih =>
      intro values success
      obtain ⟨first, value, _, named, valued, later, rfl⟩ := values_entry_eq_ok_iff.mp success
      obtain ⟨second, other, rest, named', valued', behind, rfl⟩ :=
        values_entry_eq_ok_iff.mp later
      obtain ⟨value', read, like⟩ := here.value depth value valued
      obtain ⟨other', read', like'⟩ := there.value depth other valued'
      obtain ⟨rest', behind', likeRest⟩ := ih rest behind
      have names : first ≠ second := fun same => differ ⟨first, named, same ▸ named'⟩
      have tail := values_entry_eq_ok_iff.mpr ⟨first, value', rest', named, read, behind', rfl⟩
      refine ⟨_, values_entry_eq_ok_iff.mpr ⟨second, other', _, named', read', tail, rfl⟩, ?_⟩
      exact (LikeMembers.swap names value other rest).trans
        ((likeRest.cons first like).cons second like')
  | trans _ _ first second => exact first.trans second fun _ _ _ => .trans

theorem Members.skipFault?_entry_eq_none_iff {key : Text} {tree : Tree} {rest : Members} :
    (Members.entry key tree rest).skipFault? = none ↔
      key.skip = none ∧ tree.skipFault? = none ∧ rest.skipFault? = none := by
  rw [Members.skipFault?, Option.or_eq_none_iff, Option.or_eq_none_iff]

theorem Members.Reordered.skip (reordered : Members.Reordered Tree.Carried members members')
    (passed : members.skipFault? = none) : members'.skipFault? = none := by
  induction reordered with
  | done ending => exact passed
  | entry key here _ ih =>
      obtain ⟨keyed, passed, behind⟩ := skipFault?_entry_eq_none_iff.mp passed
      exact skipFault?_entry_eq_none_iff.mpr ⟨keyed, here.skip passed, ih behind⟩
  | swap _ here there _ ih =>
      obtain ⟨keyed, passed, behind⟩ := skipFault?_entry_eq_none_iff.mp passed
      obtain ⟨keyed', passed', behind⟩ := skipFault?_entry_eq_none_iff.mp behind
      have tail := skipFault?_entry_eq_none_iff.mpr ⟨keyed, here.skip passed, ih behind⟩
      exact skipFault?_entry_eq_none_iff.mpr ⟨keyed', there.skip passed', tail⟩
  | trans _ _ first second => exact second (first passed)

end Carried

/-- The order of members decides neither whether a value is read nor what it is to its readers. -/
theorem Tree.Reordered.carried {tree tree' : Tree} (reordered : tree.Reordered tree') :
    tree.Carried tree' := by
  refine reordered.induct Tree.Carried.refl (fun {elements elements'} inside => ?_)
    fun {members members'} inside => ?_
  · refine ⟨fun depth => ?_, inside.skip⟩
    cases depth with
    | zero => exact Carries.refl .refl _
    | succ depth => exact (inside.values depth).map fun _ _ like => .list like
  · refine ⟨fun depth => ?_, inside.skip⟩
    cases depth with
    | zero => exact Carries.refl .refl _
    | succ depth => exact (inside.values depth).map fun _ _ like => like.map

/-! ### Reordering -/

theorem Text.SameName.symm {first second : Text} (same : first.SameName second) :
    second.SameName first :=
  let ⟨name, one, two⟩ := same
  ⟨name, two, one⟩

theorem Text.not_sameName {first second : Text} {name other : String} (one : first.read = .ok name)
    (two : second.read = .ok other) (differ : name ≠ other) : ¬ first.SameName second := by
  rintro ⟨both, one', two'⟩
  cases one.symm.trans one'
  cases two.symm.trans two'
  exact differ rfl

theorem Elements.Reordered.symm {R : Tree → Tree → Prop} {elements elements' : Elements}
    (reordered : Elements.Reordered (fun tree tree' => R tree' tree) elements elements') :
    Elements.Reordered R elements' elements := by
  induction reordered with
  | done ending => exact .done ending
  | item here _ ih => exact .item here ih

theorem Members.Reordered.symm {R : Tree → Tree → Prop} {members members' : Members}
    (reordered : Members.Reordered (fun tree tree' => R tree' tree) members members') :
    Members.Reordered R members' members := by
  induction reordered with
  | done ending => exact .done ending
  | entry key here _ ih => exact .entry key here ih
  | swap differ here there _ ih => exact .swap (differ ∘ Text.SameName.symm) there here ih
  | trans _ _ first second => exact second.trans first

theorem Tree.Reordered.symm {tree tree' : Tree} (reordered : tree.Reordered tree') :
    tree'.Reordered tree :=
  reordered.induct (motive := fun tree tree' => tree'.Reordered tree) .same
    (fun inside => .list inside.symm) fun inside => .map inside.symm

/-! ### Permuted entries -/

/-- The members of a map with some entries. -/
def Members.ofEntries (entries : List (Text × Tree)) : Members :=
  entries.foldr (fun entry rest => .entry entry.1 entry.2 rest) (.done .closed)

theorem Members.Reordered.refl (members : Members) :
    Members.Reordered Tree.Reordered members members := by
  cases members with
  | done ending => exact .done ending
  | entry key value rest => exact .entry key (.same value) (.refl rest)

theorem Members.reordered_of_values {entries entries' : List (Text × Tree)}
    (values : List.Forall₂ (fun entry entry' => entry'.1 = entry.1 ∧ entry.2.Reordered entry'.2)
      entries entries') :
    Members.Reordered Tree.Reordered (.ofEntries entries) (.ofEntries entries') := by
  induction values with
  | nil => exact .done .closed
  | @cons entry entry' _ _ here _ ih =>
      obtain ⟨key, value⟩ := entry'
      obtain ⟨rfl, here⟩ := here
      exact .entry entry.1 here ih

theorem Members.reordered_of_perm {entries entries' : List (Text × Tree)}
    (perm : entries.Perm entries')
    (distinct : entries.Pairwise fun first second => ¬ first.1.SameName second.1) :
    Members.Reordered Tree.Reordered (.ofEntries entries) (.ofEntries entries') := by
  induction perm with
  | nil => exact .done .closed
  | cons entry _ ih => exact .entry entry.1 (.same _) (ih (List.pairwise_cons.mp distinct).2)
  | swap first second rest =>
      have apart := (List.pairwise_cons.mp distinct).1 first List.mem_cons_self
      exact .swap apart (.same _) (.same _) (.refl _)
  | trans first _ one two =>
      have symmetric {first second : Text × Tree} (apart : ¬ first.1.SameName second.1) :
          ¬ second.1.SameName first.1 := mt Text.SameName.symm apart
      exact (one distinct).trans (two ((first.pairwise_iff symmetric).mp distinct))

/-- A map in which no name is repeated may have its entries in any order, and their values
reordered. -/
theorem Tree.reordered_of_perm {entries middle entries' : List (Text × Tree)}
    (perm : middle.Perm entries')
    (values : List.Forall₂ (fun entry entry' => entry'.1 = entry.1 ∧ entry.2.Reordered entry'.2)
      entries middle)
    (distinct : middle.Pairwise fun first second => ¬ first.1.SameName second.1) :
    (Tree.map (.ofEntries entries)).Reordered (.map (.ofEntries entries')) :=
  .map ((Members.reordered_of_values values).trans (Members.reordered_of_perm perm distinct))

end Json

end ControlStore
