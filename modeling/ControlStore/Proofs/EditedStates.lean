import ControlStore.Proofs.DocumentParts

set_option autoImplicit false

/-!
The states of a document with one transition edited. They are those of the document with one of them
edited, and an edited state can be read only if its new transition can be read in its place.
-/
namespace ControlStore

open Json (Tree Elements Members Text)

theorem exists_of_forall₂ {α β : Type} {Gives : α → β → Prop} {items : List α} {values : List β}
    (all : List.Forall₂ Gives items values) {i : Nat} {item : α} (located : items[i]? = some item) :
    ∃ value, values[i]? = some value ∧ Gives item value := by
  induction all generalizing i with
  | nil => cases located
  | cons here _ ih =>
      cases i with
      | zero =>
          cases located
          exact ⟨_, rfl, here⟩
      | succ i => exact ih located

namespace Document

variable {change : Tree → Tree} {new : Option Tree}

/-! ### Fields are determined -/

theorem Named.unique {members : Members} {entries others : List (String × Tree)}
    (here : Named members entries) (there : Named members others) : entries = others := by
  induction here generalizing others with
  | done =>
      cases there
      rfl
  | entry named _ ih =>
      cases there with
      | entry named' behind =>
          cases named.symm.trans named'
          rw [ih behind]

theorem Listed.unique {elements : Elements} {trees others : List Tree}
    (here : Listed elements trees) (there : Listed elements others) : trees = others := by
  induction here generalizing others with
  | done =>
      cases there
      rfl
  | item _ ih =>
      cases there with
      | item behind => rw [ih behind]

theorem HasFields.unique {part : Expected} {tree : Tree} {fields others : List (String × Tree)}
    (here : HasFields part tree fields) (there : HasFields part tree others) : fields = others := by
  cases here with
  | map names =>
      cases there with
      | map names' => exact names.unique names'
  | list listed =>
      cases there with
      | list listed' => rw [listed.unique listed']

/-- The states of a document are what the trees of its states give. -/
theorem DocumentOf.forall₂_states {tree : Tree} {document : Document} {entries : List Tree}
    (given : DocumentOf tree document) (states : StatesOf tree entries) :
    List.Forall₂ StateOf entries document.states := by
  obtain ⟨fields, given⟩ := given
  obtain ⟨fields', found, listed⟩ := states
  cases fields.unique fields'
  obtain ⟨_, found', all⟩ := given.states.exists_some
  cases found.symm.trans found'
  cases all with
  | elements listed' all => rwa [listed.unique listed']

theorem DocumentOf.exists_states {tree : Tree} {document : Document}
    (given : DocumentOf tree document) : ∃ entries, StatesOf tree entries := by
  obtain ⟨fields, given⟩ := given
  obtain ⟨_, found, all⟩ := given.states.exists_some
  cases all with
  | elements listed _ => exact ⟨_, .listed fields found listed⟩

/-! ### Edited fields -/

theorem Named.modifyMember {members : Members} {entries : List (String × Tree)} {name : String}
    (names : Named members entries) :
    Named (modifyMember name change members) (entries.map fun entry =>
      (entry.1, if entry.1 = name then change entry.2 else entry.2)) := by
  induction names with
  | done => exact .done
  | @entry key field tree _ _ named _ ih =>
      have same : (if key.read.toOption = some name then change tree else tree) =
          if field = name then change tree else tree := by
        rw [named]
        simp [Except.toOption]
      rw [Document.modifyMember, same]
      exact .entry named ih

theorem Listed.modifyElement {elements : Elements} {trees : List Tree}
    (listed : Listed elements trees) (position : Nat) :
    Listed (modifyElement change position elements) (trees.modify position change) := by
  induction listed generalizing position with
  | done =>
      rw [List.modify_nil, Document.modifyElement]
      exact .done
  | item listed ih =>
      cases position with
      | zero => exact .item listed
      | succ position => exact .item (ih position)

theorem lookup_modifyMember (entries : List (String × Tree)) (name : String) :
    (entries.map fun entry => (entry.1, if entry.1 = name then change entry.2 else entry.2)).lookup
        name = (entries.lookup name).map change := by
  induction entries with
  | nil => rfl
  | cons entry rest ih =>
      rw [List.map_cons, List.lookup_cons, List.lookup_cons]
      by_cases here : name = entry.1
      · simp [here]
      · have differ : (name == entry.1) = false := beq_eq_false_iff_ne.mpr here
        rw [differ, ih]

theorem lookup_states (trees : List Tree) :
    (Expected.document.fields.zip trees).lookup "states" = trees[3]? := by
  rcases trees with _ | ⟨_, _ | ⟨_, _ | ⟨_, _ | ⟨_, _⟩⟩⟩⟩ <;> rfl

/-- An edited document has the fields of the document, its states edited. -/
theorem HasFields.editNext {tree : Tree} {fields : List (String × Tree)}
    (part : HasFields .document tree fields) (position : Nat) :
    ∃ edited, HasFields .document (editNext position new tree) edited ∧
      edited.lookup "states" = (fields.lookup "states").map (editStates position new) := by
  cases part with
  | map names distinct known =>
      refine ⟨_, .map names.modifyMember ?_ ?_, lookup_modifyMember _ _⟩
      · rwa [List.map_map]
      · intro field member
        obtain ⟨entry, listed, rfl⟩ := List.mem_map.mp member
        exact known entry listed
  | @list _ trees listed short =>
      refine ⟨_, .list (listed.modifyElement 3) ?_, ?_⟩
      · rwa [List.length_modify]
      · rw [lookup_states, lookup_states, List.getElem?_modify]
        cases trees[3]? <;> rfl

/-- The states of an edited document are those of the document with one edited. -/
theorem StatesOf.editNext {tree : Tree} {entries : List Tree} (states : StatesOf tree entries)
    (position : Nat) :
    StatesOf (editNext position new tree) (entries.modify position (editState new)) := by
  obtain ⟨fields, found, listed⟩ := states
  obtain ⟨edited, fields', same⟩ := fields.editNext position
  rw [found] at same
  exact .listed fields' same (listed.modifyElement position)

/-! ### New transitions -/

theorem GivenNext.exists_value {tree : Tree} {given : Option Json.Value}
    (read : GivenNext tree given) : ∃ value, tree.value 124 = .ok value := by
  cases read with
  | null => exact ⟨.null, rfl⟩
  | value _ found => exact ⟨_, found⟩

theorem exists_value_of_putNext {tree : Tree} {members : Members} {name : Option String}
    {control : Option Record} {next : Option (Option Json.Value)} {entry : StateEntry}
    (success : readStateMembers name control next (putNext (some tree) members) = .ok entry) :
    ∃ value, tree.value 124 = .ok value := by
  have placed {key : Text} (keyed : key.read = .ok "next") {rest : Members}
      (success : readStateMembers name control next (.entry key tree rest) = .ok entry) :
      ∃ value, tree.value 124 = .ok value := by
    rw [readStateMembers_keyed keyed] at success
    obtain ⟨-, _, found, -⟩ := once_bind_eq_ok_iff.mp success
    exact ((readNext_exact _ _).mp found).exists_value
  match members with
  | .done ending => exact placed rfl success
  | .entry key value rest =>
      rw [putNext.eq_def] at success
      dsimp only at success
      split_ifs at success with named
      · exact placed (toOption_eq_some_iff.mp named) success
      · rw [readStateMembers_entry] at success
        obtain ⟨field, keyed, success⟩ := bind_eq_ok_iff.mp success
        split_ifs at success
        all_goals
          obtain ⟨_, -, behind⟩ := bind_eq_ok_iff.mp success
          exact exists_value_of_putNext behind

theorem exists_value_of_list {first second tree : Tree} {entry : StateEntry}
    (state : StateOf (.list (.item first (.item second (.item tree (.done .closed))))) entry) :
    ∃ value, tree.value 124 = .ok value := by
  obtain ⟨part, given⟩ := state
  cases part with
  | list listed _ =>
      cases listed.unique (.item (.item (.item .done)))
      exact (optionalField_some.mp given.next).exists_value

/-- An edited state is one only if what is given for its transition can be read in its place. -/
theorem StateOf.exists_newNext {tree : Tree} {entry changed : StateEntry}
    (state : StateOf tree entry) (edited : StateOf (editState new tree) changed) :
    ∃ given, NewNext new given := by
  cases new with
  | none => exact ⟨none, .none⟩
  | some next =>
      suffices readable : ∃ value, next.value 124 = .ok value by
        obtain ⟨value, found⟩ := readable
        exact ⟨some value, .some found⟩
      cases tree with
      | map members => exact exists_value_of_putNext ((readState_exact _ _).mpr edited)
      | list elements =>
          obtain ⟨⟨_, behind⟩, found, -⟩ := bind_eq_ok_iff.mp ((readState_exact _ _).mpr state)
          obtain ⟨first, rfl, -⟩ := exists_item_of_required found
          cases behind with
          | item second rest => exact exists_value_of_list edited
          | done ending => exact exists_value_of_list edited
      | _ =>
          obtain ⟨⟨⟩, -⟩ := state

end Document

end ControlStore
