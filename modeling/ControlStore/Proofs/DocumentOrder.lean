import ControlStore.Proofs.MemberOrder
import ControlStore.Proofs.StateEdits

set_option autoImplicit false

/-!
The order of members in a document. Each part of a document takes its members one by one, and two
members of different names change different things, so they may change places: steps of different
names make a diamond, and a whole reader follows from its steps.
-/
namespace ControlStore.Document

open Json (Tree Elements Members Text)
open Json.Value (Interchangeable)

/-! ### Readers of members -/

section Reader

variable {σ τ : Type}

/-- A reader of members holds something, and each member changes it by a step. -/
structure MemberReader (Step : σ → String → Tree → σ → Prop) (finish : σ → Except Fault τ)
    (read : σ → Members → Except Fault τ) : Prop where
  done : ∀ held ending, read held (.done ending) = check ending.mapFault? >>= fun _ => finish held
  entry : ∀ {held key tree rest result}, read held (.entry key tree rest) = .ok result ↔
    ∃ name next, key.read = .ok name ∧ Step held name tree next ∧ read next rest = .ok result

/-- Steps that may be taken in any order, on trees that may be reordered themselves. -/
structure Orderless (like : σ → σ → Prop) (Step : σ → String → Tree → σ → Prop) : Prop where
  refl : ∀ held, like held held
  carried : ∀ {held held' next name tree tree'}, like held held' → tree.Reordered tree' →
    Step held name tree next → ∃ next', Step held' name tree' next' ∧ like next next'
  diamond : ∀ {held middle next first second tree other}, first ≠ second →
    Step held first tree middle → Step middle second other next →
    ∃ middle', Step held second other middle' ∧ Step middle' first tree next

variable {Step : σ → String → Tree → σ → Prop} {finish : σ → Except Fault τ}
  {read : σ → Members → Except Fault τ} {like : σ → σ → Prop} {results : τ → τ → Prop}

/-- Reordered members, read from like beginnings, come to like results. -/
theorem MemberReader.carries (reader : MemberReader Step finish read)
    (orderless : Orderless like Step)
    (finished : ∀ held held', like held held' → Carries results (finish held) (finish held'))
    (join : ∀ one two three, results one two → results two three → results one three)
    {members members' : Members} (reordered : Members.Reordered Tree.Reordered members members')
    {held held' : σ} (alike : like held held') :
    Carries results (read held members) (read held' members') := by
  induction reordered generalizing held held' with
  | done ending =>
      rw [reader.done, reader.done]
      exact (Carries.of_eq rfl).bind fun _ _ (_ : _ = _) => finished _ _ alike
  | entry key here _ ih =>
      intro result success
      obtain ⟨name, next, named, step, behind⟩ := reader.entry.mp success
      obtain ⟨next', step', alike⟩ := orderless.carried alike here step
      obtain ⟨result', behind', same⟩ := ih alike result behind
      exact ⟨result', reader.entry.mpr ⟨name, next', named, step', behind'⟩, same⟩
  | swap differ here there _ ih =>
      intro result success
      obtain ⟨first, middle, named, step, later⟩ := reader.entry.mp success
      obtain ⟨second, next, named', step', behind⟩ := reader.entry.mp later
      have names : first ≠ second := fun same => differ ⟨first, named, same ▸ named'⟩
      -- First the two steps change places, then both are taken on the reordered values.
      obtain ⟨between, one, two⟩ := orderless.diamond names step step'
      obtain ⟨between', one', alike⟩ := orderless.carried alike there one
      obtain ⟨next', two', alike⟩ := orderless.carried alike here two
      obtain ⟨result', behind', same⟩ := ih alike result behind
      have tail := reader.entry.mpr ⟨first, next', named, two', behind'⟩
      exact ⟨result', reader.entry.mpr ⟨second, between', named', one', tail⟩, same⟩
  | trans _ _ first second => exact (first alike).trans (second (orderless.refl _)) join

theorem MemberReader.carries_eq (reader : MemberReader Step finish read)
    (orderless : Orderless Eq Step) {members members' : Members}
    (reordered : Members.Reordered Tree.Reordered members members') (held : σ) :
    Carries Eq (read held members) (read held members') :=
  reader.carries orderless (fun _ _ same => .of_eq (congrArg finish same)) (fun _ _ _ => Eq.trans)
    reordered rfl

end Reader

/-! ### Parts -/

variable {α β : Type}

/-- A reader of trees that reads like things from reordered trees. -/
def Unordered (like : α → α → Prop) (read : Tree → Except Fault α) : Prop :=
  ∀ {tree tree' : Tree}, tree.Reordered tree' → Carries like (read tree) (read tree')

theorem lift_carries {like : α → α → Prop} {first second : Except Json.Fault α}
    (carries : Carries like first second) : Carries like (lift first) (lift second) := by
  intro value success
  obtain ⟨value', found, alike⟩ := carries value (lift_eq_ok_iff.mp success)
  exact ⟨value', lift_eq_ok_iff.mpr found, alike⟩

theorem readNumber_unordered : Unordered Eq readNumber := by
  intro tree tree' reordered
  cases reordered with
  | same => exact Carries.of_eq rfl
  | list | map => exact fun _ impossible => nomatch impossible

theorem readText_unordered : Unordered Eq readText := by
  intro tree tree' reordered
  cases reordered with
  | same => exact Carries.of_eq rfl
  | list | map => exact fun _ impossible => nomatch impossible

theorem readControlValue_unordered (depth : Nat) : Unordered Eq (readControlValue depth) := by
  intro tree tree' reordered
  refine (lift_carries (reordered.carried.value depth)).bind fun value value' alike => ?_
  rw [alike.control]
  exact Carries.of_eq rfl

/-- A field that was not given is read, and then what is behind it. -/
theorem once_bind_eq_ok_iff {name : String} {held : Option α} {read : Except Fault α}
    {next : Option α → Except Fault β} {result : β} :
    once name held read >>= next = .ok result ↔
      held = none ∧ ∃ content, read = .ok content ∧ next (some content) = .ok result := by
  rw [bind_eq_ok_iff]
  constructor
  · rintro ⟨_, given, behind⟩
    obtain ⟨absent, content, found, rfl⟩ := once_eq_ok_iff.mp given
    exact ⟨absent, content, found, behind⟩
  · rintro ⟨absent, content, found, behind⟩
    exact ⟨_, once_eq_ok_iff.mpr ⟨absent, content, found, rfl⟩, behind⟩

theorem need_carries {like : α → α → Prop} {held held' : Option α}
    (related : Option.Rel like held held') (name : String) :
    Carries like (need name held) (need name held') := by
  cases related with
  | none => exact fun _ impossible => nomatch impossible
  | some alike => exact Carries.ok alike

/-! ### Entries -/

/-- A member puts its value at its name. -/
inductive EntryStep (read : Tree → Except Fault α) (held : NameMap α) (name : String)
    (tree : Tree) : NameMap α → Prop where
  | insert {value : α} : read tree = .ok value → EntryStep read held name tree (held.insert name value)

theorem insert_comm {first second : String} (differ : first ≠ second) (map : NameMap α)
    (value other : α) : (map.insert first value).insert second other =
      (map.insert second other).insert first value := by
  refine NameMap.eq_of_find? fun name => ?_
  simp only [NameMap.find?_insert]
  split_ifs with here there
  · exact absurd (there.trans here.symm) differ
  all_goals rfl

theorem readEntries_reader (read : Tree → Except Fault α) :
    MemberReader (EntryStep read) .ok (readEntries read) where
  done _ _ := rfl
  entry := by
    intro held key tree rest result
    rw [readEntries, bind_eq_ok_iff]
    constructor
    · rintro ⟨name, named, later⟩
      obtain ⟨value, valued, behind⟩ := bind_eq_ok_iff.mp later
      exact ⟨name, _, lift_eq_ok_iff.mp named, .insert valued, behind⟩
    · rintro ⟨name, _, named, ⟨valued⟩, behind⟩
      exact ⟨name, lift_eq_ok_iff.mpr named, bind_eq_ok_iff.mpr ⟨_, valued, behind⟩⟩

theorem entryStep_orderless {read : Tree → Except Fault α} (unordered : Unordered Eq read) :
    Orderless Eq (EntryStep read) where
  refl _ := rfl
  carried := by
    rintro held _ _ name tree tree' rfl reordered ⟨valued⟩
    obtain ⟨_, valued', rfl⟩ := unordered reordered _ valued
    exact ⟨_, .insert valued', rfl⟩
  diamond := by
    rintro held _ _ first second tree other differ ⟨valued⟩ ⟨valued'⟩
    refine ⟨_, .insert valued', ?_⟩
    rw [insert_comm differ]
    exact .insert valued

theorem readMap_unordered {read : Tree → Except Fault α} (unordered : Unordered Eq read) :
    Unordered Eq (readMap read) := by
  intro tree tree' reordered
  cases reordered with
  | same => exact Carries.of_eq rfl
  | list => exact fun _ impossible => nomatch impossible
  | map inside =>
      exact (readEntries_reader read).carries_eq (entryStep_orderless unordered) inside .empty

/-! ### Lists -/

theorem readItems_carries {like : α → α → Prop} {read : Tree → Except Fault α}
    (unordered : Unordered like read) {elements elements' : Elements}
    (reordered : Elements.Reordered Tree.Reordered elements elements') :
    Carries (List.Forall₂ like) (readItems read elements) (readItems read elements') := by
  induction reordered with
  | done ending =>
      refine (Carries.of_eq rfl).bind fun _ _ (_ : _ = _) => ?_
      exact Carries.ok .nil
  | item here _ ih =>
      refine (unordered here).bind fun value value' alike => ?_
      exact ih.map fun _ _ behind => .cons alike behind

/-- After a field of a list comes what is read of the elements behind it. -/
theorem nextField_carries {like : α → α → Prop} (refl : ∀ value, like value value)
    {read : Tree → Except Fault α} (unordered : Unordered like read) {absent : Except Fault α}
    {elements elements' : Elements}
    (reordered : Elements.Reordered Tree.Reordered elements elements') {results : β → β → Prop}
    {next next' : α × Elements → Except Fault β}
    (continued : ∀ value value' rest rest', like value value' →
      Elements.Reordered Tree.Reordered rest rest' →
      Carries results (next (value, rest)) (next' (value', rest'))) :
    Carries results (nextField read absent elements >>= next)
      (nextField read absent elements' >>= next') := by
  have field : Carries (fun first second => like first.1 second.1 ∧
        Elements.Reordered Tree.Reordered first.2 second.2)
      (nextField read absent elements) (nextField read absent elements') := by
    rintro ⟨value, rest⟩ success
    rcases nextField_eq_ok_iff.mp success with ⟨tree, rfl, found⟩ | ⟨rfl, rfl, found⟩
    · cases reordered with
      | item here behind =>
          obtain ⟨value', found', alike⟩ := unordered here value found
          exact ⟨(value', _), nextField_item found', alike, behind⟩
    · cases reordered
      exact ⟨_, success, refl value, .done .closed⟩
  exact field.bind fun _ _ related => continued _ _ _ _ related.1 related.2

theorem endFault?_carries {elements elements' : Elements}
    (reordered : Elements.Reordered Tree.Reordered elements elements') :
    Carries Eq (check elements.endFault?) (check elements'.endFault?) := by
  cases reordered <;> exact Carries.of_eq rfl

/-! ### Geometry -/

/-- The fields of a geometry that were read: the bits of states and those of opcodes. -/
abbrev GeometryFields := Option Nat × Option Nat

/-- A member gives a field that was not given, or is passed over. -/
inductive GeometryStep : GeometryFields → String → Tree → GeometryFields → Prop where
  | stateBits {tree : Tree} {bits : Nat} {opcodeBits : Option Nat} : readNumber tree = .ok bits →
      GeometryStep (none, opcodeBits) "state_bits" tree (some bits, opcodeBits)
  | opcodeBits {tree : Tree} {bits : Nat} {stateBits : Option Nat} : readNumber tree = .ok bits →
      GeometryStep (stateBits, none) "opcode_bits" tree (stateBits, some bits)
  | other {held : GeometryFields} {name : String} {tree : Tree} : name ≠ "state_bits" →
      name ≠ "opcode_bits" → tree.skipFault? = none → GeometryStep held name tree held

theorem readGeometryMembers_reader :
    MemberReader GeometryStep
      (fun held => do return ⟨← need "state_bits" held.1, ← need "opcode_bits" held.2⟩)
      (fun held members => readGeometryMembers held.1 held.2 members) where
  done _ _ := rfl
  entry := by
    rintro ⟨stateBits, opcodeBits⟩ key tree rest result
    rw [readGeometryMembers_entry, bind_eq_ok_iff]
    simp only [lift_eq_ok_iff]
    refine exists_congr fun name => ?_
    constructor
    · rintro ⟨named, later⟩
      split_ifs at later with isState isOpcode
      · subst isState
        obtain ⟨rfl, _, found, behind⟩ := once_bind_eq_ok_iff.mp later
        exact ⟨_, named, .stateBits found, behind⟩
      · subst isOpcode
        obtain ⟨rfl, _, found, behind⟩ := once_bind_eq_ok_iff.mp later
        exact ⟨_, named, .opcodeBits found, behind⟩
      · obtain ⟨_, passed, behind⟩ := bind_eq_ok_iff.mp later
        exact ⟨_, named, .other isState isOpcode (check_eq_ok_iff.mp passed), behind⟩
    · rintro ⟨next, named, step, behind⟩
      refine ⟨named, ?_⟩
      cases step with
      | stateBits found | opcodeBits found =>
          exact once_bind_eq_ok_iff.mpr ⟨rfl, _, found, behind⟩
      | other isState isOpcode passed =>
          rw [if_neg isState, if_neg isOpcode]
          exact bind_eq_ok_iff.mpr ⟨(), check_eq_ok_iff.mpr passed, behind⟩

theorem geometryStep_orderless : Orderless Eq GeometryStep where
  refl _ := rfl
  carried := by
    rintro held _ next name tree tree' rfl reordered step
    cases step with
    | stateBits found =>
        obtain ⟨_, found', rfl⟩ := readNumber_unordered reordered _ found
        exact ⟨_, .stateBits found', rfl⟩
    | opcodeBits found =>
        obtain ⟨_, found', rfl⟩ := readNumber_unordered reordered _ found
        exact ⟨_, .opcodeBits found', rfl⟩
    | other isState isOpcode passed =>
        exact ⟨_, .other isState isOpcode (reordered.carried.skip passed), rfl⟩
  diamond := by
    rintro held middle next first second tree other differ one two
    cases one with
    | stateBits found =>
        cases two with
        | opcodeBits found' => exact ⟨_, .opcodeBits found', .stateBits found⟩
        | other isState isOpcode passed =>
            exact ⟨_, .other isState isOpcode passed, .stateBits found⟩
    | opcodeBits found =>
        cases two with
        | stateBits found' => exact ⟨_, .stateBits found', .opcodeBits found⟩
        | other isState isOpcode passed =>
            exact ⟨_, .other isState isOpcode passed, .opcodeBits found⟩
    | other isState isOpcode passed => exact ⟨_, two, .other isState isOpcode passed⟩

theorem readGeometry_unordered : Unordered Eq readGeometry := by
  intro tree tree' reordered
  cases reordered with
  | same => exact Carries.of_eq rfl
  | map inside =>
      exact readGeometryMembers_reader.carries_eq geometryStep_orderless inside (none, none)
  | list inside =>
      refine nextField_carries (fun _ => rfl) readNumber_unordered inside ?_
      rintro stateBits _ _ _ rfl inside
      refine nextField_carries (fun _ => rfl) readNumber_unordered inside ?_
      rintro opcodeBits _ _ _ rfl inside
      exact (endFault?_carries inside).bind fun _ _ _ => Carries.of_eq rfl

theorem readGeometryOption_unordered : Unordered Eq readGeometryOption := by
  intro tree tree' reordered
  cases reordered with
  | same => exact Carries.of_eq rfl
  | map inside => exact (readGeometry_unordered (.map inside)).map fun _ _ => congrArg some
  | list inside => exact (readGeometry_unordered (.list inside)).map fun _ _ => congrArg some

/-! ### States -/

theorem readControl_unordered : Unordered Eq readControl :=
  readMap_unordered (readControlValue_unordered _)

theorem readNext_unordered : Unordered (Option.Rel Interchangeable) readNext := by
  intro tree tree' reordered
  have valued : Carries (Option.Rel Interchangeable) (lift (some <$> tree.value stateDepth))
      (lift (some <$> tree'.value stateDepth)) :=
    lift_carries ((reordered.carried.value stateDepth).map fun _ _ => .some)
  cases reordered with
  | same => exact Carries.refl (rel_refl .refl) _
  | list | map => exact valued

/-- The fields of a state that were read: its name, its control values and its transition. -/
abbrev StateFields := Option String × Option Record × Option (Option Json.Value)

/-- A member gives a field that was not given. -/
inductive StateStep : StateFields → String → Tree → StateFields → Prop where
  | name {tree : Tree} {content : String} {control : Option Record}
      {next : Option (Option Json.Value)} : readText tree = .ok content →
      StateStep (none, control, next) "name" tree (some content, control, next)
  | control {tree : Tree} {record : Record} {name : Option String}
      {next : Option (Option Json.Value)} : readControl tree = .ok record →
      StateStep (name, none, next) "control" tree (name, some record, next)
  | next {tree : Tree} {given : Option Json.Value} {name : Option String}
      {control : Option Record} : readNext tree = .ok given →
      StateStep (name, control, none) "next" tree (name, control, some given)

theorem readStateMembers_reader :
    MemberReader StateStep
      (fun held => do return ⟨← need "name" held.1, held.2.1.getD .empty, held.2.2.getD none⟩)
      (fun held members => readStateMembers held.1 held.2.1 held.2.2 members) where
  done _ _ := rfl
  entry := by
    rintro ⟨name, control, next⟩ key tree rest result
    rw [readStateMembers_entry, bind_eq_ok_iff]
    simp only [lift_eq_ok_iff]
    refine exists_congr fun field => ?_
    constructor
    · rintro ⟨named, later⟩
      split_ifs at later with isName isControl isNext
      · subst isName
        obtain ⟨rfl, _, found, behind⟩ := once_bind_eq_ok_iff.mp later
        exact ⟨_, named, .name found, behind⟩
      · subst isControl
        obtain ⟨rfl, _, found, behind⟩ := once_bind_eq_ok_iff.mp later
        exact ⟨_, named, .control found, behind⟩
      · subst isNext
        obtain ⟨rfl, _, found, behind⟩ := once_bind_eq_ok_iff.mp later
        exact ⟨_, named, .next found, behind⟩
    · rintro ⟨_, named, step, behind⟩
      refine ⟨named, ?_⟩
      cases step with
      | name found | control found | next found =>
          exact once_bind_eq_ok_iff.mpr ⟨rfl, _, found, behind⟩

/-- Fields that are the same but for the order of members in the transition. -/
structure StateFields.Like (first second : StateFields) : Prop where
  name : second.1 = first.1
  control : second.2.1 = first.2.1
  next : Option.Rel (Option.Rel Interchangeable) first.2.2 second.2.2

theorem stateStep_orderless : Orderless StateFields.Like StateStep where
  refl _ := ⟨rfl, rfl, rel_refl (rel_refl .refl) _⟩
  carried := by
    rintro held ⟨name', control', next'⟩ next name tree tree' ⟨sameName, sameControl, likeNext⟩
      reordered step
    cases step with
    | name found =>
        obtain ⟨_, found', rfl⟩ := readText_unordered reordered _ found
        cases sameName
        exact ⟨_, .name found', rfl, sameControl, likeNext⟩
    | control found =>
        obtain ⟨_, found', rfl⟩ := readControl_unordered reordered _ found
        cases sameControl
        exact ⟨_, .control found', sameName, rfl, likeNext⟩
    | next found =>
        obtain ⟨_, found', like⟩ := readNext_unordered reordered _ found
        cases likeNext
        exact ⟨_, .next found', sameName, sameControl, .some like⟩
  diamond := by
    rintro held middle next first second tree other differ one two
    cases one with
    | name found =>
        cases two with
        | control found' => exact ⟨_, .control found', .name found⟩
        | next found' => exact ⟨_, .next found', .name found⟩
    | control found =>
        cases two with
        | name found' => exact ⟨_, .name found', .control found⟩
        | next found' => exact ⟨_, .next found', .control found⟩
    | next found =>
        cases two with
        | name found' => exact ⟨_, .name found', .next found⟩
        | control found' => exact ⟨_, .control found', .next found⟩

/-- States that are the same but for the order of members in the transition. -/
structure LikeState (first second : StateEntry) : Prop where
  name : second.name = first.name
  control : second.control = first.control
  next : Option.Rel Interchangeable first.next second.next

theorem LikeState.refl (entry : StateEntry) : LikeState entry entry :=
  ⟨rfl, rfl, rel_refl .refl _⟩

theorem likeStates_refl (entries : List StateEntry) : List.Forall₂ LikeState entries entries :=
  List.forall₂_same.mpr fun entry _ => .refl entry

theorem LikeState.trans {one two three : StateEntry} (first : LikeState one two)
    (second : LikeState two three) : LikeState one three :=
  ⟨second.name.trans first.name, second.control.trans first.control,
    rel_trans .trans first.next second.next⟩

theorem StateFields.Like.finish {held held' : StateFields} (like : StateFields.Like held held') :
    Carries LikeState
      (need "name" held.1 >>= fun name =>
        (.ok ⟨name, held.2.1.getD .empty, held.2.2.getD none⟩ : Except Fault StateEntry))
      (need "name" held'.1 >>= fun name => .ok ⟨name, held'.2.1.getD .empty, held'.2.2.getD none⟩) := by
  have next : Option.Rel Interchangeable (held.2.2.getD none) (held'.2.2.getD none) :=
    rel_getD like.next .none
  rw [like.name, like.control]
  exact (Carries.of_eq rfl).bind fun _ _ same => same ▸ Carries.ok ⟨rfl, rfl, next⟩

theorem readState_unordered : Unordered LikeState readState := by
  intro tree tree' reordered
  cases reordered with
  | same => exact Carries.refl .refl _
  | map inside =>
      exact readStateMembers_reader.carries stateStep_orderless (fun _ _ like => like.finish)
        (fun _ _ _ => .trans) inside (stateStep_orderless.refl (none, none, none))
  | list inside =>
      refine nextField_carries (fun _ => rfl) readText_unordered inside ?_
      rintro name _ _ _ rfl inside
      refine nextField_carries (fun _ => rfl) readControl_unordered inside ?_
      rintro control _ _ _ rfl inside
      refine nextField_carries (rel_refl .refl) readNext_unordered inside ?_
      rintro next next' _ _ like inside
      exact (endFault?_carries inside).bind fun _ _ _ => Carries.ok ⟨rfl, rfl, like⟩

theorem readStates_unordered : Unordered (List.Forall₂ LikeState) (readList readState) := by
  intro tree tree' reordered
  cases reordered with
  | same => exact Carries.refl likeStates_refl _
  | list inside => exact readItems_carries readState_unordered inside
  | map => exact fun _ impossible => nomatch impossible

/-! ### Documents -/

theorem readOpcodes_unordered : Unordered Eq readOpcodes :=
  readMap_unordered readNumber_unordered

theorem readDefaults_unordered : Unordered Eq readDefaults :=
  readMap_unordered (readControlValue_unordered _)

/-- The fields of a document that were read. -/
abbrev DocumentFields :=
  Option (Option Geometry) × Option (NameMap Nat) × Option (NameMap Value) ×
    Option (List StateEntry)

/-- A member gives a field that was not given. -/
inductive DocumentStep : DocumentFields → String → Tree → DocumentFields → Prop where
  | geometry {tree : Tree} {content : Option Geometry} {opcodes : Option (NameMap Nat)}
      {defaults : Option (NameMap Value)} {states : Option (List StateEntry)} :
      readGeometryOption tree = .ok content →
      DocumentStep (none, opcodes, defaults, states) "geometry" tree
        (some content, opcodes, defaults, states)
  | opcodes {tree : Tree} {content : NameMap Nat} {geometry : Option (Option Geometry)}
      {defaults : Option (NameMap Value)} {states : Option (List StateEntry)} :
      readOpcodes tree = .ok content →
      DocumentStep (geometry, none, defaults, states) "opcodes" tree
        (geometry, some content, defaults, states)
  | defaults {tree : Tree} {content : NameMap Value} {geometry : Option (Option Geometry)}
      {opcodes : Option (NameMap Nat)} {states : Option (List StateEntry)} :
      readDefaults tree = .ok content →
      DocumentStep (geometry, opcodes, none, states) "defaults" tree
        (geometry, opcodes, some content, states)
  | states {tree : Tree} {content : List StateEntry} {geometry : Option (Option Geometry)}
      {opcodes : Option (NameMap Nat)} {defaults : Option (NameMap Value)} :
      readList readState tree = .ok content →
      DocumentStep (geometry, opcodes, defaults, none) "states" tree
        (geometry, opcodes, defaults, some content)

theorem readDocumentMembers_reader :
    MemberReader DocumentStep
      (fun held => do
        return ⟨held.1.getD none, ← need "opcodes" held.2.1, held.2.2.1.getD .empty,
          ← need "states" held.2.2.2⟩)
      (fun held members =>
        readDocumentMembers held.1 held.2.1 held.2.2.1 held.2.2.2 members) where
  done _ _ := rfl
  entry := by
    rintro ⟨geometry, opcodes, defaults, states⟩ key tree rest result
    rw [readDocumentMembers_entry, bind_eq_ok_iff]
    simp only [lift_eq_ok_iff]
    refine exists_congr fun field => ?_
    constructor
    · rintro ⟨named, later⟩
      split_ifs at later with isGeometry isOpcodes isDefaults isStates
      · subst isGeometry
        obtain ⟨rfl, _, found, behind⟩ := once_bind_eq_ok_iff.mp later
        exact ⟨_, named, .geometry found, behind⟩
      · subst isOpcodes
        obtain ⟨rfl, _, found, behind⟩ := once_bind_eq_ok_iff.mp later
        exact ⟨_, named, .opcodes found, behind⟩
      · subst isDefaults
        obtain ⟨rfl, _, found, behind⟩ := once_bind_eq_ok_iff.mp later
        exact ⟨_, named, .defaults found, behind⟩
      · subst isStates
        obtain ⟨rfl, _, found, behind⟩ := once_bind_eq_ok_iff.mp later
        exact ⟨_, named, .states found, behind⟩
    · rintro ⟨_, named, step, behind⟩
      refine ⟨named, ?_⟩
      cases step with
      | geometry found | opcodes found | defaults found | states found =>
          exact once_bind_eq_ok_iff.mpr ⟨rfl, _, found, behind⟩

/-- Fields that are the same but for the order of members in transitions. -/
structure DocumentFields.Like (first second : DocumentFields) : Prop where
  geometry : second.1 = first.1
  opcodes : second.2.1 = first.2.1
  defaults : second.2.2.1 = first.2.2.1
  states : Option.Rel (List.Forall₂ LikeState) first.2.2.2 second.2.2.2

theorem documentStep_orderless : Orderless DocumentFields.Like DocumentStep where
  refl _ := ⟨rfl, rfl, rfl, rel_refl likeStates_refl _⟩
  carried := by
    rintro held ⟨geometry', opcodes', defaults', states'⟩ next name tree tree'
      ⟨sameGeometry, sameOpcodes, sameDefaults, likeStates⟩ reordered step
    cases step with
    | geometry found =>
        obtain ⟨_, found', rfl⟩ := readGeometryOption_unordered reordered _ found
        cases sameGeometry
        exact ⟨_, .geometry found', rfl, sameOpcodes, sameDefaults, likeStates⟩
    | opcodes found =>
        obtain ⟨_, found', rfl⟩ := readOpcodes_unordered reordered _ found
        cases sameOpcodes
        exact ⟨_, .opcodes found', sameGeometry, rfl, sameDefaults, likeStates⟩
    | defaults found =>
        obtain ⟨_, found', rfl⟩ := readDefaults_unordered reordered _ found
        cases sameDefaults
        exact ⟨_, .defaults found', sameGeometry, sameOpcodes, rfl, likeStates⟩
    | states found =>
        obtain ⟨_, found', like⟩ := readStates_unordered reordered _ found
        cases likeStates
        exact ⟨_, .states found', sameGeometry, sameOpcodes, sameDefaults, .some like⟩
  diamond := by
    rintro held middle next first second tree other differ one two
    cases one with
    | geometry found =>
        cases two with
        | opcodes found' => exact ⟨_, .opcodes found', .geometry found⟩
        | defaults found' => exact ⟨_, .defaults found', .geometry found⟩
        | states found' => exact ⟨_, .states found', .geometry found⟩
    | opcodes found =>
        cases two with
        | geometry found' => exact ⟨_, .geometry found', .opcodes found⟩
        | defaults found' => exact ⟨_, .defaults found', .opcodes found⟩
        | states found' => exact ⟨_, .states found', .opcodes found⟩
    | defaults found =>
        cases two with
        | geometry found' => exact ⟨_, .geometry found', .defaults found⟩
        | opcodes found' => exact ⟨_, .opcodes found', .defaults found⟩
        | states found' => exact ⟨_, .states found', .defaults found⟩
    | states found =>
        cases two with
        | geometry found' => exact ⟨_, .geometry found', .states found⟩
        | opcodes found' => exact ⟨_, .opcodes found', .states found⟩
        | defaults found' => exact ⟨_, .defaults found', .states found⟩

/-- Documents that are the same but for the order of members in transitions. -/
structure Like (first second : Document) : Prop where
  geometry : second.geometry = first.geometry
  opcodes : second.opcodes = first.opcodes
  defaults : second.defaults = first.defaults
  states : List.Forall₂ LikeState first.states second.states

theorem Like.refl (document : Document) : Like document document :=
  ⟨rfl, rfl, rfl, likeStates_refl _⟩

theorem Like.trans {one two three : Document} (first : Like one two) (second : Like two three) :
    Like one three where
  geometry := second.geometry.trans first.geometry
  opcodes := second.opcodes.trans first.opcodes
  defaults := second.defaults.trans first.defaults
  states := forall₂_trans .trans first.states second.states

theorem DocumentFields.Like.finish {held held' : DocumentFields}
    (like : DocumentFields.Like held held') :
    Carries Document.Like
      (need "opcodes" held.2.1 >>= fun opcodes => need "states" held.2.2.2 >>= fun states =>
        (.ok ⟨held.1.getD none, opcodes, held.2.2.1.getD .empty, states⟩ : Except Fault Document))
      (need "opcodes" held'.2.1 >>= fun opcodes => need "states" held'.2.2.2 >>= fun states =>
        .ok ⟨held'.1.getD none, opcodes, held'.2.2.1.getD .empty, states⟩) := by
  rw [like.geometry, like.opcodes, like.defaults]
  refine (Carries.of_eq rfl).bind fun opcodes _ same => same ▸ ?_
  exact (need_carries like.states "states").bind fun _ _ states =>
    Carries.ok ⟨rfl, rfl, rfl, states⟩

/-- A document is read from reordered trees alike. -/
theorem ofTree_unordered : Unordered Like ofTree := by
  intro tree tree' reordered
  cases reordered with
  | same => exact Carries.refl .refl _
  | map inside =>
      exact readDocumentMembers_reader.carries documentStep_orderless (fun _ _ like => like.finish)
        (fun _ _ _ => .trans) inside (documentStep_orderless.refl (none, none, none, none))
  | list inside =>
      refine nextField_carries (fun _ => rfl) readGeometryOption_unordered inside ?_
      rintro geometry _ _ _ rfl inside
      refine nextField_carries (fun _ => rfl) readOpcodes_unordered inside ?_
      rintro opcodes _ _ _ rfl inside
      refine nextField_carries (fun _ => rfl) readDefaults_unordered inside ?_
      rintro defaults _ _ _ rfl inside
      refine nextField_carries likeStates_refl readStates_unordered inside ?_
      rintro states states' _ _ like inside
      exact (endFault?_carries inside).bind fun _ _ _ => Carries.ok ⟨rfl, rfl, rfl, like⟩

end ControlStore.Document
