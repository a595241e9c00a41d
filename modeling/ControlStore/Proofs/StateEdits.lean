import ControlStore.Document.Edit
import ControlStore.Document.Load
import ControlStore.Proofs.DocumentTexts

set_option autoImplicit false

/-!
Documents with one transition edited. What a document that can be read holds besides that
transition is read from the edited document again.
-/
namespace ControlStore.Document

open Json (Tree Elements Members Text)

variable {α : Type}

/-! ### Parts that were read -/

theorem lift_eq_ok_iff {result : Except Json.Fault α} {value : α} :
    lift result = .ok value ↔ result = .ok value := by
  cases result <;> simp [lift]

theorem check_eq_ok_iff {fault : Option Json.Fault} {result : Unit} :
    check fault = .ok result ↔ fault = none := by
  cases fault <;> simp [check]

theorem once_eq_ok_iff {name : String} {held : Option α} {read : Except Fault α}
    {value : Option α} : once name held read = .ok value ↔
      held = none ∧ ∃ content, read = .ok content ∧ some content = value := by
  cases held with
  | none =>
      change some <$> read = .ok value ↔ _
      simp [map_eq_ok_iff]
  | some first => simp [once]

/-- A field of a list is the element at the front, or left out at the end of the list. -/
theorem nextField_eq_ok_iff {read : Tree → Except Fault α} {absent : Except Fault α}
    {elements rest : Elements} {value : α} :
    nextField read absent elements = .ok (value, rest) ↔
      (∃ tree, elements = .item tree rest ∧ read tree = .ok value) ∨
        (elements = .done .closed ∧ rest = elements ∧ absent = .ok value) := by
  cases elements with
  | item tree behind =>
      change (read tree >>= fun value => .ok (value, behind)) = _ ↔ _
      constructor
      · intro success
        obtain ⟨_, found, same⟩ := bind_eq_ok_iff.mp success
        cases same
        exact Or.inl ⟨tree, rfl, found⟩
      · rintro (⟨_, same, found⟩ | ⟨impossible, -⟩)
        · cases same
          exact bind_eq_ok_iff.mpr ⟨value, found, rfl⟩
        · cases impossible
  | done ending =>
      cases ending with
      | closed =>
          change (absent >>= fun value => .ok (value, Elements.done .closed)) = _ ↔ _
          constructor
          · intro success
            obtain ⟨_, found, same⟩ := bind_eq_ok_iff.mp success
            cases same
            exact Or.inr ⟨rfl, rfl, found⟩
          · rintro (⟨_, impossible, -⟩ | ⟨-, rfl, found⟩)
            · cases impossible
            · exact bind_eq_ok_iff.mpr ⟨value, found, rfl⟩
      | _ => simp [nextField, Elements.next, Json.Ending.listFault?, lift, bind, Except.bind]

theorem nextField_item {read : Tree → Except Fault α} {absent : Except Fault α} {tree : Tree}
    {rest : Elements} {value : α} (success : read tree = .ok value) :
    nextField read absent (.item tree rest) = .ok (value, rest) :=
  nextField_eq_ok_iff.mpr (Or.inl ⟨tree, rfl, success⟩)

theorem exists_item_of_required {read : Tree → Except Fault α} {fault : Fault}
    {elements rest : Elements} {value : α}
    (found : nextField read (.error fault) elements = .ok (value, rest)) :
    ∃ tree, elements = .item tree rest ∧ read tree = .ok value := by
  rcases nextField_eq_ok_iff.mp found with item | ⟨-, -, impossible⟩
  · exact item
  · cases impossible

theorem exists_item_of_item {read : Tree → Except Fault α} {absent : Except Fault α}
    {elements rest : Elements} {next : Tree} {value : α}
    (found : nextField read absent elements = .ok (value, .item next rest)) :
    ∃ tree, elements = .item tree (.item next rest) ∧ read tree = .ok value := by
  rcases nextField_eq_ok_iff.mp found with item | ⟨rfl, impossible, -⟩
  · exact item
  · cases impossible

/-- What is read of a transition that is given or not. -/
def readGiven : Option Tree → Except Fault (Option Json.Value)
  | none => .ok none
  | some tree => readNext tree

/-! ### States -/

variable {new : Option Tree} {stored : Option Json.Value}

theorem readStateMembers_done {ending : Json.Ending} {name : Option String}
    {control : Option Record} {next : Option (Option Json.Value)} {entry : StateEntry}
    (success : readStateMembers name control next (.done ending) = .ok entry)
    (other : Option (Option Json.Value)) :
    readStateMembers name control other (.done ending) =
      .ok { entry with next := other.getD none } := by
  refine bind_eq_ok_imp success fun _ success => bind_eq_ok_imp success fun named same => ?_
  cases same
  rfl

/-- What is read behind a transition does not depend on it. -/
theorem readStateMembers_next {members : Members} {name : Option String} {control : Option Record}
    {next : Option Json.Value} {entry : StateEntry}
    (success : readStateMembers name control (some next) members = .ok entry)
    (other : Option (Option Json.Value)) :
    readStateMembers name control other members = .ok { entry with next := other.getD none } := by
  match members with
  | .done ending => exact readStateMembers_done success other
  | .entry key tree rest =>
      rw [readStateMembers_entry] at success ⊢
      refine bind_eq_ok_imp success fun field success => ?_
      split_ifs at success ⊢
      · exact bind_eq_ok_imp success fun _ behind => readStateMembers_next behind other
      · exact bind_eq_ok_imp success fun _ behind => readStateMembers_next behind other
      · obtain ⟨held, read, -⟩ := bind_eq_ok_iff.mp success
        cases (once_eq_ok_iff.mp read).1

theorem readStateMembers_keyed {key : Text} (keyed : key.read = .ok "next") (tree : Tree)
    (rest : Members) (name : Option String) (control : Option Record)
    (next : Option (Option Json.Value)) :
    readStateMembers name control next (.entry key tree rest) =
      once "next" next (readNext tree) >>= fun next => readStateMembers name control next rest := by
  rw [readStateMembers_entry, keyed]
  rfl

/-- The new transition is read, be it in the place of the old one, behind all else or nowhere. -/
theorem readStateMembers_putNext (given : readGiven new = .ok stored) {members : Members}
    {name : Option String} {control : Option Record} {entry : StateEntry}
    (success : readStateMembers name control none members = .ok entry) :
    readStateMembers name control none (putNext new members) =
      .ok { entry with next := stored } := by
  have placed {key : Text} (keyed : key.read = .ok "next") {tree : Tree}
      (given : readNext tree = .ok stored) {rest : Members}
      (behind : readStateMembers name control (some stored) rest =
        .ok { entry with next := stored }) :
      readStateMembers name control none (.entry key tree rest) =
        .ok { entry with next := stored } := by
    rw [readStateMembers_keyed keyed]
    exact bind_eq_ok_iff.mpr ⟨_, once_eq_ok_iff.mpr ⟨rfl, stored, given, rfl⟩, behind⟩
  match members with
  | .done ending =>
      cases new with
      | none =>
          cases given
          exact readStateMembers_done success none
      | some tree =>
          have keyed : nextKey.read = .ok "next" := rfl
          exact placed keyed given (readStateMembers_done success (some stored))
  | .entry key tree rest =>
      rw [putNext.eq_def]
      dsimp only
      split_ifs with named
      · have keyed := toOption_eq_some_iff.mp named
        rw [readStateMembers_keyed keyed] at success
        obtain ⟨held, read, success⟩ := bind_eq_ok_iff.mp success
        obtain ⟨-, old, -, rfl⟩ := once_eq_ok_iff.mp read
        cases new with
        | none =>
            cases given
            exact readStateMembers_next success none
        | some tree => exact placed keyed given (readStateMembers_next success (some stored))
      · rw [readStateMembers_entry] at success ⊢
        obtain ⟨field, keyed, success⟩ := bind_eq_ok_iff.mp success
        refine bind_eq_ok_iff.mpr ⟨field, keyed, ?_⟩
        have other : field ≠ "next" := by
          rintro rfl
          exact named (toOption_eq_some_iff.mpr (lift_eq_ok_iff.mp keyed))
        rw [if_neg other] at success ⊢
        split_ifs at success ⊢
        · exact bind_eq_ok_imp success fun _ behind => readStateMembers_putNext given behind
        · exact bind_eq_ok_imp success fun _ behind => readStateMembers_putNext given behind

/-- A state written as a list, up to its transition. -/
theorem readState_list (given : readGiven new = .ok stored) {first second : Tree} {name : String}
    {control : Record} (named : readText first = .ok name)
    (controlled : readControl second = .ok control) :
    readState (.list (.item first (.item second (endNext new)))) = .ok ⟨name, control, stored⟩ := by
  have ended : ∃ rest, nextField readNext (.ok none) (endNext new) = .ok (stored, rest) ∧
      rest.endFault? = none := by
    refine ⟨.done .closed, ?_, rfl⟩
    cases new with
    | none => exact nextField_eq_ok_iff.mpr (Or.inr ⟨rfl, rfl, given⟩)
    | some tree => exact nextField_item given
  obtain ⟨rest, last, closed⟩ := ended
  refine bind_eq_ok_iff.mpr ⟨_, nextField_item named, ?_⟩
  refine bind_eq_ok_iff.mpr ⟨_, nextField_item controlled, ?_⟩
  refine bind_eq_ok_iff.mpr ⟨_, last, bind_eq_ok_iff.mpr ⟨(), ?_, rfl⟩⟩
  rw [closed]
  rfl

theorem refuse_ne_ok {expected : Expected} {tree : Tree} {value : α} :
    refuse expected tree ≠ .ok value := by
  intro success
  obtain ⟨_, _, impossible⟩ := bind_eq_ok_iff.mp success
  cases impossible

/-- A state that can be read is read with its new transition. -/
theorem readState_editState (given : readGiven new = .ok stored) {tree : Tree}
    {entry : StateEntry} (success : readState tree = .ok entry) :
    readState (editState new tree) = .ok { entry with next := stored } := by
  cases tree with
  | map members => exact readStateMembers_putNext given success
  | list elements =>
      obtain ⟨⟨name, behind⟩, foundName, success⟩ := bind_eq_ok_iff.mp success
      obtain ⟨⟨control, last⟩, foundControl, success⟩ := bind_eq_ok_iff.mp success
      obtain ⟨⟨next, rest⟩, foundNext, success⟩ := bind_eq_ok_iff.mp success
      obtain ⟨_, -, success⟩ := bind_eq_ok_iff.mp success
      cases success
      obtain ⟨first, rfl, named⟩ := exists_item_of_required foundName
      rcases nextField_eq_ok_iff.mp foundControl with ⟨second, rfl, controlled⟩ | ⟨rfl, rfl, bare⟩
      · exact readState_list given named controlled
      · cases bare
        cases new with
        | none =>
            cases given
            refine bind_eq_ok_iff.mpr ⟨_, foundName, bind_eq_ok_iff.mpr ⟨_, foundControl, ?_⟩⟩
            exact bind_eq_ok_iff.mpr ⟨(none, .done .closed), rfl, rfl⟩
        | some tree => exact readState_list given named rfl
  | _ => exact absurd success refuse_ne_ok

/-! ### Documents -/

theorem readItems_modifyElement {read : Tree → Except Fault α} {change : Tree → Tree}
    {edit : α → α}
    (edited : ∀ tree value, read tree = .ok value → read (change tree) = .ok (edit value))
    {elements : Elements} {values : List α} (success : readItems read elements = .ok values)
    (position : Nat) :
    readItems read (modifyElement change position elements) =
      .ok (values.modify position edit) := by
  match elements, position with
  | .done ending, _ =>
      obtain ⟨_, -, same⟩ := bind_eq_ok_iff.mp success
      cases same
      rw [modifyElement, List.modify_nil]
      exact success
  | .item tree rest, 0 =>
      obtain ⟨value, read, success⟩ := bind_eq_ok_iff.mp success
      refine bind_eq_ok_iff.mpr ⟨_, edited tree value read, ?_⟩
      refine bind_eq_ok_imp success fun behind same => ?_
      cases same
      rfl
  | .item tree rest, position + 1 =>
      refine bind_eq_ok_imp success fun value success => ?_
      obtain ⟨behind, later, same⟩ := bind_eq_ok_iff.mp success
      cases same
      exact bind_eq_ok_iff.mpr ⟨_, readItems_modifyElement edited later position, rfl⟩

/-- The entries of a document with a transition edited. -/
def editEntries (position : Nat) (stored : Option Json.Value) (entries : List StateEntry) :
    List StateEntry :=
  entries.modify position fun entry => { entry with next := stored }

theorem readList_editStates (given : readGiven new = .ok stored) (position : Nat) {tree : Tree}
    {states : List StateEntry} (success : readList readState tree = .ok states) :
    readList readState (editStates position new tree) =
      .ok (editEntries position stored states) := by
  cases tree with
  | list elements =>
      exact readItems_modifyElement (fun _ _ read => readState_editState given read) success position
  | _ => exact absurd success refuse_ne_ok

theorem readDocumentMembers_modifyMember {change : Tree → Tree}
    {edit : List StateEntry → List StateEntry}
    (edited : ∀ tree states, readList readState tree = .ok states →
      readList readState (change tree) = .ok (edit states)) {members : Members}
    {geometry : Option (Option Geometry)} {opcodes : Option (NameMap Nat)}
    {defaults : Option (NameMap Value)} {states : Option (List StateEntry)} {document : Document}
    (success : readDocumentMembers geometry opcodes defaults states members = .ok document) :
    readDocumentMembers geometry opcodes defaults (states.map edit)
      (modifyMember "states" change members) =
        .ok { document with states := edit document.states } := by
  match members with
  | .done ending =>
      obtain ⟨_, closed, success⟩ := bind_eq_ok_iff.mp success
      obtain ⟨declared, needed, success⟩ := bind_eq_ok_iff.mp success
      obtain ⟨listed, given, success⟩ := bind_eq_ok_iff.mp success
      cases success
      cases states with
      | none => cases given
      | some states =>
          cases given
          refine bind_eq_ok_iff.mpr ⟨(), closed, bind_eq_ok_iff.mpr ⟨declared, needed, ?_⟩⟩
          exact bind_eq_ok_iff.mpr ⟨edit listed, rfl, rfl⟩
  | .entry key tree rest =>
      rw [readDocumentMembers_entry] at success
      rw [modifyMember, readDocumentMembers_entry]
      obtain ⟨field, keyed, success⟩ := bind_eq_ok_iff.mp success
      refine bind_eq_ok_iff.mpr ⟨field, keyed, ?_⟩
      rw [lift_eq_ok_iff.mp keyed]
      by_cases named : field = "states"
      · subst named
        rw [if_neg (by decide), if_neg (by decide), if_neg (by decide), if_pos rfl] at success ⊢
        obtain ⟨held, read, success⟩ := bind_eq_ok_iff.mp success
        obtain ⟨rfl, entries, found, rfl⟩ := once_eq_ok_iff.mp read
        have changed : once "states" none (readList readState (change tree)) =
            .ok (some (edit entries)) :=
          once_eq_ok_iff.mpr ⟨rfl, edit entries, edited tree entries found, rfl⟩
        exact bind_eq_ok_iff.mpr ⟨_, changed, readDocumentMembers_modifyMember edited success⟩
      · rw [if_neg (mt toOption_eq_some_iff.mp fun same => named (Except.ok.inj same))]
        rw [if_neg named] at success ⊢
        split_ifs at success ⊢
        · exact bind_eq_ok_imp success fun _ behind =>
            readDocumentMembers_modifyMember edited behind
        · exact bind_eq_ok_imp success fun _ behind =>
            readDocumentMembers_modifyMember edited behind
        · exact bind_eq_ok_imp success fun _ behind =>
            readDocumentMembers_modifyMember edited behind

theorem endFault?_eq_none_iff {elements : Elements} :
    elements.endFault? = none ↔ elements = .done .closed := by
  cases elements with
  | done ending => cases ending <;> simp [Json.Elements.endFault?]
  | item tree rest => simp [Json.Elements.endFault?]

/-- A document written as a list has all its fields. -/
theorem ofTree_list_eq_ok_iff {elements : Elements} {document : Document} :
    ofTree (.list elements) = .ok document ↔
      ∃ first second third fourth,
        elements = .item first (.item second (.item third (.item fourth (.done .closed)))) ∧
        readGeometryOption first = .ok document.geometry ∧
        readOpcodes second = .ok document.opcodes ∧
        readDefaults third = .ok document.defaults ∧
        readList readState fourth = .ok document.states := by
  constructor
  · intro success
    obtain ⟨⟨geometry, behind⟩, foundGeometry, success⟩ := bind_eq_ok_iff.mp success
    obtain ⟨⟨opcodes, later⟩, foundOpcodes, success⟩ := bind_eq_ok_iff.mp success
    obtain ⟨⟨defaults, last⟩, foundDefaults, success⟩ := bind_eq_ok_iff.mp success
    obtain ⟨⟨states, rest⟩, foundStates, success⟩ := bind_eq_ok_iff.mp success
    obtain ⟨_, closed, success⟩ := bind_eq_ok_iff.mp success
    cases success
    -- The list of states must be there, so all that stands before it is.
    obtain ⟨fourth, rfl, readFourth⟩ := exists_item_of_required foundStates
    obtain ⟨third, rfl, readThird⟩ := exists_item_of_item foundDefaults
    obtain ⟨second, rfl, readSecond⟩ := exists_item_of_item foundOpcodes
    obtain ⟨first, rfl, readFirst⟩ := exists_item_of_item foundGeometry
    obtain rfl : rest = .done .closed := endFault?_eq_none_iff.mp (check_eq_ok_iff.mp closed)
    exact ⟨first, second, third, fourth, rfl, readFirst, readSecond, readThird, readFourth⟩
  · rintro ⟨first, second, third, fourth, rfl, readFirst, readSecond, readThird, readFourth⟩
    refine bind_eq_ok_iff.mpr ⟨_, nextField_item readFirst, ?_⟩
    refine bind_eq_ok_iff.mpr ⟨_, nextField_item readSecond, ?_⟩
    refine bind_eq_ok_iff.mpr ⟨_, nextField_item readThird, ?_⟩
    exact bind_eq_ok_iff.mpr ⟨_, nextField_item readFourth, rfl⟩

/-- A document that can be read is read with the transition of the state at a position edited. -/
theorem ofTree_editNext (given : readGiven new = .ok stored) (position : Nat) {tree : Tree}
    {document : Document} (success : ofTree tree = .ok document) :
    ofTree (editNext position new tree) =
      .ok { document with states := editEntries position stored document.states } := by
  have edited : ∀ tree states, readList readState tree = .ok states →
      readList readState (editStates position new tree) =
        .ok (editEntries position stored states) :=
    fun _ _ read => readList_editStates given position read
  cases tree with
  | map members => exact readDocumentMembers_modifyMember edited success
  | list elements =>
      obtain ⟨first, second, third, fourth, rfl, one, two, three, four⟩ :=
        ofTree_list_eq_ok_iff.mp success
      exact ofTree_list_eq_ok_iff.mpr
        ⟨first, second, third, _, rfl, one, two, three, edited fourth _ four⟩
  | _ => exact absurd success refuse_ne_ok

end ControlStore.Document
