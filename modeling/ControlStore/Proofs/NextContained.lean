import ControlStore.Proofs.EditedStates
import ControlStore.Proofs.ProgramFaults

set_option autoImplicit false

/-!
Bad transitions are contained. Whatever value stands for the transition of a state, if only it can
be read there, the rest of the document is loaded as before; if the value is no transition, the
state has none, and a program with such a state does not compile.
-/
namespace ControlStore

namespace Document

open Json (Tree)

/-! ### Loading -/

/-- A value that can be read is read as a transition, and `null` as none. -/
theorem exists_readGiven {new : Option Tree} {given : Option Json.Value}
    (readable : NewNext new given) : ∃ stored,
      readGiven new = .ok stored ∧
        stored.bind Transition.ofJson? = given.bind Transition.ofJson? := by
  cases readable with
  | none => exact ⟨none, rfl, rfl⟩
  | @some tree value valued =>
      by_cases null : tree = .null
      · subst null
        cases valued
        exact ⟨none, rfl, rfl⟩
      · exact ⟨some value, (readNext_exact _ _).mpr (.value null valued), rfl⟩

theorem load_states {document : Document} {loaded : Loaded}
    (success : document.load = .ok loaded) :
    List.Forall₂ StateEntry.Becomes document.states loaded.program.states := by
  obtain ⟨_, -, same⟩ := bind_eq_ok_iff.mp success
  cases same
  exact forall₂_becomes_iff.mpr rfl

/-- An edited document has the same schema, and its program differs in one transition. -/
theorem load_editEntries {document : Document} {loaded : Loaded}
    (success : document.load = .ok loaded) {position : Nat} {state : State}
    (located : loaded.program.states[position]? = some state) (stored : Option Json.Value) :
    ∃ changed,
      Document.load { document with states := editEntries position stored document.states } =
          .ok changed ∧ changed.schema = loaded.schema ∧
        changed.program.states = loaded.program.states.set position
          { state with next := stored.bind Transition.ofJson? } := by
  obtain ⟨schema, built, same⟩ := bind_eq_ok_iff.mp success
  cases same
  refine ⟨_, bind_eq_ok_iff.mpr ⟨schema, built, rfl⟩, rfl, List.ext_getElem? fun i => ?_⟩
  have inside := (List.getElem?_eq_some_iff.mp located).1
  rw [List.getElem?_set]
  change ((editEntries position stored document.states).map (·.state))[i]? = _
  rw [List.getElem?_map, editEntries, List.getElem?_modify]
  by_cases here : position = i
  · subst here
    rw [program, List.getElem?_map] at located
    obtain ⟨entry, found, rfl⟩ := Option.map_eq_some_iff.mp located
    rw [found, if_pos rfl, if_pos inside]
    simp [StateEntry.state]
  · simp [here, program]

/-- An edited document is loaded with its new transition, if that can be read in its place. -/
theorem Holds.exists_edited {tree : Tree} {document : Document} {loaded : Loaded}
    (found : ofTree tree = .ok document) (loads : document.load = .ok loaded) {position : Nat}
    {state : State} (located : loaded.program.states[position]? = some state)
    {new : Option Tree} {edited : List Char} (holds : Holds edited (editNext position new tree))
    {given : Option Json.Value} (readable : NewNext new given) :
    ∃ changed next, Loaded.ofText edited = .ok changed ∧ changed.schema = loaded.schema ∧
      changed.program.states = loaded.program.states.set position { state with next := next } ∧
      NextOf given next := by
  obtain ⟨stored, read, meant⟩ := exists_readGiven readable
  obtain ⟨changed, loadsEdited, schema, states⟩ := load_editEntries loads located stored
  have foundEdited := ofTree_editNext read position found
  exact ⟨changed, _, holds.ofText_eq_ok_iff.mpr ⟨_, foundEdited, loadsEdited⟩, schema, states,
    bind_ofJson?_eq_iff.mp meant.symm⟩

/-- No document can be read with a transition that cannot be read in its place. -/
theorem not_documentOf_editNext {tree : Tree} {entries : List Tree} (states : StatesOf tree entries)
    {position : Nat} {entry : Tree} (located : entries[position]? = some entry) {given : StateEntry}
    (state : StateOf entry given) {new : Option Tree} (unreadable : ¬ ∃ given, NewNext new given)
    (document : Document) : ¬ DocumentOf (editNext position new tree) document := by
  intro edited
  have all := edited.forall₂_states (states.editNext position)
  have located : (entries.modify position (editState new))[position]? =
      some (editState new entry) := by
    rw [List.getElem?_modify, located]
    simp
  obtain ⟨changed, -, state'⟩ := exists_of_forall₂ all located
  exact unreadable (state.exists_newNext state')

end Document

/-- A program with a state that has no transition does not compile. -/
theorem compile_ne_ok_of_next_eq_none (schema : Schema) {program : Program} {state : State}
    (member : state ∈ program.states) (none : state.next = none) (m : Microcode) :
    compile schema program ≠ .ok m := by
  intro success
  have formed := (program.faults_eq_nil_iff schema).mp
    ((reports_compile schema program).exists_ok_iff.mp ⟨m, success⟩)
  exact formed.resolved state member none

/-! ### A small document

A state that always follows itself, and the same state with a clause that has an unknown key.
-/
namespace Document.Loop

open Json (Lexeme Tree Text)

/-- The document, with some spelling of its transition. -/
def text (next : String) : List Char :=
  ("\x7bopcodes:\x7b\x7d,states:[\x7bname:\x27A\x27,next:" ++ next ++ "\x7d]\x7d").toList

def word (content : String) : Text := ⟨content.toList, 4⟩

/-- The document as a tree, with some transition. -/
def tree (next : Tree) : Tree :=
  .map (.entry (word "opcodes") (.map (.done .closed))
    (.entry (word "states")
      (.list (.item
        (.map (.entry (word "name") (.text (word "A")) (.entry (word "next") next (.done .closed))))
        (.done .closed)))
      (.done .closed)))

def unknownKey : Tree :=
  .list (.item
    (.map (.entry (word "state") (.text (word "A"))
      (.entry (word "else") (.flag true) (.done .closed))))
    (.done .closed))

/-- The lexemes of the document, with those of its transition. -/
def lexemes (next : List Lexeme) : List Lexeme :=
  [.openMap, .text (word "opcodes"), .colon, .openMap, .closeMap, .comma, .text (word "states"),
    .colon, .openList, .openMap, .text (word "name"), .colon, .text (word "A"), .comma,
    .text (word "next"), .colon] ++ next ++ [.closeMap, .closeList, .closeMap]

theorem holds : Holds (text "\x27A\x27") (tree (.text (word "A"))) := by
  have cut : (Relaxed.toJson (text "\x27A\x27")).toOption.map Lexeme.scan =
      some (lexemes [.text (word "A")]) := by decide +kernel
  exact holds_of_lexemes cut rfl

theorem holds_unknownKey : Holds (text "[\x7bstate:\x27A\x27,else:true\x7d]")
    (editNext 0 (some unknownKey) (tree (.text (word "A")))) := by
  have cut : (Relaxed.toJson (text "[\x7bstate:\x27A\x27,else:true\x7d]")).toOption.map Lexeme.scan =
      some (lexemes [.openList, .openMap, .text (word "state"), .colon, .text (word "A"), .comma,
        .text (word "else"), .colon, .flag true, .closeMap, .closeList]) := by decide +kernel
  exact holds_of_lexemes cut rfl

end Document.Loop

/-- In a text that is loaded, the transition of a state may be taken away or given as any value that
can be read in its place. Every text that holds the document so edited is loaded, with the same
schema and with the same states but for the transition of that one. A value that cannot be read
there makes the document unreadable; and no program compiles in which a state has no transition. -/
theorem Loaded.ofText_editNext {text : List Char} {loaded : Loaded}
    (success : ofText text = .ok loaded) :
    (∃ tree, Document.Holds text tree) ∧
      (∀ tree, Document.Holds text tree → ∃ entries, Document.StatesOf tree entries ∧
        entries.length = loaded.program.states.length ∧
        ∀ (position : Nat) (entry : Json.Tree), entries[position]? = some entry →
          ∃ state, loaded.program.states[position]? = some state ∧
            (∃ given, Document.StateOf entry given ∧ given.Becomes state) ∧
            ∀ (new : Option Json.Tree) (edited : List Char),
              Document.Holds edited (Document.editNext position new tree) →
              (∀ given, Document.NewNext new given → ∃ changed next, ofText edited = .ok changed ∧
                changed.schema = loaded.schema ∧
                changed.program.states =
                  loaded.program.states.set position { state with next := next } ∧
                NextOf given next ∧ (next = none ↔ NoTransition given)) ∧
              ((¬ ∃ given, Document.NewNext new given) →
                ∃ fault, ofText edited = .error (.document fault))) ∧
      ∀ (schema : Schema) (program : Program) (m : Microcode),
        (∃ state ∈ program.states, state.next = none) → compile schema program ≠ .ok m := by
  refine ⟨Document.exists_holds success, ?_, ?_⟩
  · intro tree holds
    obtain ⟨document, found, loads⟩ := holds.ofText_eq_ok_iff.mp success
    have whole := (Document.ofTree_exact tree document).mp found
    obtain ⟨entries, states⟩ := whole.exists_states
    have given := whole.forall₂_states states
    have become := Document.load_states loads
    refine ⟨entries, states, given.length_eq.trans become.length_eq, ?_⟩
    intro position entry located
    obtain ⟨held, here, stateOf⟩ := exists_of_forall₂ given located
    obtain ⟨state, there, becomes⟩ := exists_of_forall₂ become here
    refine ⟨state, there, ⟨held, stateOf, becomes⟩, ?_⟩
    intro new edited heldEdited
    constructor
    · intro value readable
      obtain ⟨changed, next, loaded, schema, states, meant⟩ :=
        heldEdited.exists_edited found loads there readable
      exact ⟨changed, next, loaded, schema, states, meant, meant.eq_none_iff⟩
    · intro unreadable
      refine heldEdited.exists_unread fun document found => ?_
      exact Document.not_documentOf_editNext states located stateOf unreadable document
        ((Document.ofTree_exact _ _).mp found)
  · rintro schema program m ⟨state, member, none⟩
    exact compile_ne_ok_of_next_eq_none schema member none m

/-- A clause with an unknown key leaves the state without a transition, and nothing else changes. -/
theorem Loaded.ofText_editNext_unknownKey : ∃ loaded changed,
    ofText (Document.Loop.text "\x27A\x27") = .ok loaded ∧
      loaded.program.states = [⟨"A", .empty, some (.always "A")⟩] ∧
      ofText (Document.Loop.text "[\x7bstate:\x27A\x27,else:true\x7d]") = .ok changed ∧
      changed.schema = loaded.schema ∧ changed.program.states = [⟨"A", .empty, none⟩] ∧
      ∀ m, compile changed.schema changed.program ≠ .ok m := by
  obtain ⟨loaded, success⟩ : ∃ loaded, ofText (Document.Loop.text "\x27A\x27") = .ok loaded :=
    exists_ok_of_isOk (by decide +kernel)
  have shown : (ofText (Document.Loop.text "\x27A\x27")).toOption.map (·.program.states) =
      some [⟨"A", .empty, some (.always "A")⟩] := by decide +kernel
  rw [success] at shown
  have before : loaded.program.states = [⟨"A", .empty, some (.always "A")⟩] :=
    Option.some.inj shown
  obtain ⟨-, edits, never⟩ := ofText_editNext success
  obtain ⟨entries, -, length, edits⟩ := edits _ Document.Loop.holds
  rw [before] at length edits
  obtain ⟨entry, rfl⟩ := List.length_eq_one_iff.mp length
  obtain ⟨state, here, -, edits⟩ := edits 0 entry rfl
  cases here
  have value : Document.Loop.unknownKey.value 124 =
      .ok (.list [.map [("state", .text "A"), ("else", .flag true)]]) := rfl
  obtain ⟨changed, next, loads, schema, states, -, lost⟩ :=
    (edits _ _ Document.Loop.holds_unknownKey).1 _ (.some value)
  have gone : next = none := lost.mpr ((bind_ofJson?_eq_iff.mp rfl).eq_none_iff.mp rfl)
  subst gone
  refine ⟨loaded, changed, success, before, loads, schema, states, fun m => never _ _ m ?_⟩
  exact ⟨⟨"A", .empty, none⟩, by rw [states]; exact List.mem_singleton_self _, rfl⟩

/-! ### A value nested too deep

Lists of no elements but each other may be nested 127 deep by themselves, and 124 deep in the place
of a transition.
-/
namespace Json

/-- An empty list in as many lists as said. -/
def nested : Nat → Tree
  | 0 => .list (.done .closed)
  | depth + 1 => .list (.item (nested depth) (.done .closed))

def nestedLexemes (depth : Nat) : List Lexeme :=
  List.replicate (depth + 1) .openList ++ List.replicate (depth + 1) .closeList

theorem length_nestedLexemes (depth : Nat) : (nestedLexemes depth).length = 2 * depth + 2 := by
  rw [nestedLexemes, List.length_append, List.length_replicate, List.length_replicate]
  omega

theorem nestedLexemes_succ (depth : Nat) :
    nestedLexemes (depth + 1) = .openList :: (nestedLexemes depth ++ [.closeList]) := by
  have closes : List.replicate (depth + 2) Lexeme.closeList =
      List.replicate (depth + 1) .closeList ++ [.closeList] := List.replicate_succ'
  rw [nestedLexemes, closes, ← List.append_assoc]
  rfl

theorem readFrom_nested (depth steps : Nat) (rest : List Lexeme) (enough : 2 * depth < steps) :
    Tree.readFrom steps (nestedLexemes depth ++ rest) = (nested depth, rest) := by
  induction depth generalizing steps rest with
  | zero =>
      obtain ⟨steps, rfl⟩ := Nat.exists_eq_add_one.mpr enough
      rfl
  | succ depth ih =>
      obtain ⟨steps, rfl⟩ : ∃ more, steps = more + 2 := ⟨steps - 2, by omega⟩
      have inside := ih steps (.closeList :: rest) (by omega)
      rw [nestedLexemes_succ, List.cons_append, List.append_assoc,
        Tree.readFrom.eq_9 _ _ (by simp) (by simp [nestedLexemes, List.replicate_succ])]
      simp [Elements.readFrom, inside, nested]

end Json

namespace Document.Loop

open Json (Tree Lexeme Members Elements)

/-- The document is read with the transition that is read in its place. -/
theorem read_lexemes {next : List Lexeme} {given : Tree}
    (front : ∀ (steps : Nat) (rest : List Lexeme), next.length < steps →
      Tree.readFrom steps (next ++ rest) = (given, rest)) :
    Tree.read (lexemes next) = (tree given, []) := by
  have length : (lexemes next).length = next.length + 19 := by
    simp only [lexemes, List.length_append, List.length_cons, List.length_nil]
    omega
  obtain ⟨steps, budget⟩ : ∃ steps, 2 * (lexemes next).length + 2 = steps + 8 :=
    ⟨2 * next.length + 32, by omega⟩
  have inner := front steps [.closeMap, .closeList, .closeMap] (by omega)
  rw [Tree.read, budget]
  simp [lexemes, Tree.readFrom, Members.readFrom, Elements.readFrom, inner, tree]

def deep : String := String.ofList (List.replicate 125 '[' ++ List.replicate 125 ']')

theorem holds_deep :
    Holds (text deep) (editNext 0 (some (Json.nested 124)) (tree (.text (word "A")))) := by
  have cut : (Relaxed.toJson (text deep)).toOption.map Lexeme.scan =
      some (lexemes (Json.nestedLexemes 124)) := by decide +kernel
  refine holds_of_lexemes cut (read_lexemes fun steps rest enough => ?_)
  rw [Json.length_nestedLexemes] at enough
  exact Json.readFrom_nested 124 steps rest (by omega)

end Document.Loop

/-- A value that can be read by itself makes a document unreadable. -/
theorem Loaded.ofText_editNext_tooDeep :
    (∃ value, Json.Value.read Document.Loop.deep.toList = .ok value) ∧
      (∃ loaded, ofText (Document.Loop.text "\x27A\x27") = .ok loaded) ∧
      Document.Holds (Document.Loop.text "\x27A\x27")
        (Document.Loop.tree (.text (Document.Loop.word "A"))) ∧
      Document.Holds (Document.Loop.text Document.Loop.deep)
        (Document.editNext 0 (some (Json.nested 124))
          (Document.Loop.tree (.text (Document.Loop.word "A")))) ∧
      ∃ fault, ofText (Document.Loop.text Document.Loop.deep) = .error (.document fault) := by
  have refused : (Document.ofTree (Document.Loop.tree (Json.nested 124))).isOk = false := by
    decide +kernel
  refine ⟨exists_ok_of_isOk (by decide +kernel), exists_ok_of_isOk (by decide +kernel),
    Document.Loop.holds, Document.Loop.holds_deep, Document.Loop.holds_deep.exists_unread ?_⟩
  intro document read
  change Document.ofTree (Document.Loop.tree (Json.nested 124)) = .ok document at read
  rw [read] at refused
  cases refused

end ControlStore
