import ControlStore.Json.Value
import ControlStore.Proofs.FirstFault

set_option autoImplicit false

/-!
The order of lexemes in a text that holds a value. A comma stands before no closing mark, and
numbers and words stand only before what ends a value; so no word is a key.
-/
namespace ControlStore.Json

namespace Lexeme

/-- Whether a lexeme does not close a list or a map. -/
def opens : Lexeme → Bool
  | closeList | closeMap => false
  | _ => true

/-- Whether a value can end before a lexeme. -/
def ends : Lexeme → Bool
  | comma | closeList | closeMap => true
  | _ => false

/-- A lexeme that values are made of. -/
def Meaningful : Lexeme → Prop
  | text quoted => ∃ content, quoted.read = .ok content
  | number spelling => (Literal.parse? spelling).isSome = true
  | misspelt | stray => False
  | _ => True

/-- Nothing, or lexemes of which the first is of a class. -/
def Begins (p : Lexeme → Bool) (rest : List Lexeme) : Prop :=
  ∀ next, rest.head? = some next → p next = true

/-- The lexemes that a lexeme can stand before. -/
def Before : Lexeme → List Lexeme → Prop
  | comma, rest => Begins opens rest
  | number _, rest | null, rest | flag _, rest => Begins ends rest
  | _, _ => True

/-- Lexemes in the order in which they make up values. -/
inductive Orderly : List Lexeme → Prop where
  | nil : Orderly []
  | cons {lexeme : Lexeme} {rest : List Lexeme} :
      lexeme.Meaningful → lexeme.Before rest → Orderly rest → Orderly (lexeme :: rest)

theorem Orderly.meaningful {lexemes : List Lexeme} (orderly : Orderly lexemes) :
    ∀ lexeme ∈ lexemes, lexeme.Meaningful := by
  induction orderly with
  | nil => exact fun lexeme member => absurd member List.not_mem_nil
  | cons meaningful _ _ ih => exact List.forall_mem_cons.mpr ⟨meaningful, ih⟩

theorem Orderly.close {mark : Lexeme} {rest : List Lexeme} (closes : mark.opens = false)
    (orderly : Orderly rest) : Orderly (mark :: rest) := by
  cases mark with
  | closeList | closeMap => exact .cons trivial trivial orderly
  | _ => cases closes

theorem Begins.cons {p : Lexeme → Bool} {lexeme : Lexeme} (here : p lexeme = true)
    (rest : List Lexeme) : Begins p (lexeme :: rest) := by
  intro next first
  cases first
  exact here

end Lexeme

open Lexeme (Meaningful Begins Before Orderly ends opens)

/-! ### Values of trees -/

variable {steps depth : Nat} {lexemes rest : List Lexeme}

theorem Tree.value_list_eq_ok {elements : Elements} {value : Value}
    (success : (Tree.list elements).value depth = .ok value) :
    ∃ inner values, elements.values inner = .ok values := by
  cases depth with
  | zero => cases success
  | succ inner =>
      obtain ⟨values, valued, -⟩ := map_eq_ok_iff.mp success
      exact ⟨inner, values, valued⟩

theorem Tree.value_map_eq_ok {members : Members} {value : Value}
    (success : (Tree.map members).value depth = .ok value) :
    ∃ inner values, members.values inner = .ok values := by
  cases depth with
  | zero => cases success
  | succ inner =>
      obtain ⟨values, valued, -⟩ := map_eq_ok_iff.mp success
      exact ⟨inner, values, valued⟩

theorem Elements.values_item_eq_ok {tree : Tree} {behind : Elements} {values : List Value}
    (success : (Elements.item tree behind).values depth = .ok values) :
    (∃ value, tree.value depth = .ok value) ∧ ∃ more, behind.values depth = .ok more := by
  rw [Elements.values] at success
  obtain ⟨value, valued, success⟩ := bind_eq_ok_iff.mp success
  obtain ⟨more, valuedBehind, -⟩ := bind_eq_ok_iff.mp success
  exact ⟨⟨value, valued⟩, more, valuedBehind⟩

theorem Members.values_entry_eq_ok_iff {key : Text} {tree : Tree} {behind : Members}
    {values : List (String × Value)} :
    (Members.entry key tree behind).values depth = .ok values ↔
      ∃ name value more, key.read = .ok name ∧ tree.value depth = .ok value ∧
        behind.values depth = .ok more ∧ (name, value) :: more = values := by
  simp [Members.values, bind_eq_ok_iff, map_eq_ok_iff]

theorem Members.values_entry_eq_ok {key : Text} {tree : Tree} {behind : Members}
    {values : List (String × Value)}
    (success : (Members.entry key tree behind).values depth = .ok values) :
    (∃ name, key.read = .ok name) ∧ (∃ value, tree.value depth = .ok value) ∧
      ∃ more, behind.values depth = .ok more := by
  obtain ⟨name, value, more, read, valued, valuedBehind, -⟩ := values_entry_eq_ok_iff.mp success
  exact ⟨⟨name, read⟩, ⟨value, valued⟩, more, valuedBehind⟩

/-- A last element has a value only in a list that is closed. -/
theorem Elements.ending_eq_closed {tree : Tree} {ending : Ending} {values : List Value}
    (success : (Elements.item tree (.done ending)).values depth = .ok values) :
    ending = .closed := by
  obtain ⟨-, more, valued⟩ := Elements.values_item_eq_ok success
  cases ending <;> first
    | rfl
    | cases valued

theorem Members.ending_eq_closed {key : Text} {tree : Tree} {ending : Ending}
    {values : List (String × Value)}
    (success : (Members.entry key tree (.done ending)).values depth = .ok values) :
    ending = .closed := by
  obtain ⟨-, -, more, valued⟩ := Members.values_entry_eq_ok success
  cases ending <;> first
    | rfl
    | cases valued

/-! ### The order of what is read -/

/-- What a value that is read in a number of steps shows of the lexemes from its beginning on, if
those behind it are in order. Elements and members are read up to the mark that closes them. -/
structure Reads (steps : Nat) : Prop where
  tree : ∀ {depth : Nat} {lexemes rest : List Lexeme} {tree : Tree} {value : Value},
    Tree.readFrom steps lexemes = (tree, rest) → tree.value depth = .ok value →
      Orderly rest → Begins ends rest → Orderly lexemes ∧ Begins opens lexemes
  elements : ∀ {depth : Nat} {lexemes rest : List Lexeme} {elements : Elements}
    {values : List Value}, Elements.readFrom steps lexemes = (elements, rest) →
      elements.values depth = .ok values → Orderly rest → Orderly lexemes ∧ Begins opens lexemes
  members : ∀ {depth : Nat} {lexemes rest : List Lexeme} {members : Members}
    {values : List (String × Value)}, Members.readFrom steps lexemes = (members, rest) →
      members.values depth = .ok values → Orderly rest → Orderly lexemes ∧ Begins opens lexemes

theorem Reads.list_succ (reads : Reads steps) {tree : Tree} {value : Value}
    (read : Tree.readFrom (steps + 1) (.openList :: lexemes) = (tree, rest))
    (success : tree.value depth = .ok value) (orderly : Orderly rest) : Orderly lexemes := by
  rcases lexemes with _ | ⟨next, behind⟩
  · exact .nil
  · by_cases closed : next = .closeList
    · subst closed
      cases read
      exact orderly.close rfl
    · have noClose : ∀ more, next :: behind = .closeList :: more → False :=
        fun _ same => closed (List.cons.inj same).1
      rw [Tree.readFrom.eq_9 _ _ (List.cons_ne_nil _ _) noClose] at read
      cases read
      obtain ⟨inner, values, valued⟩ := Tree.value_list_eq_ok success
      exact (reads.elements rfl valued orderly).1

theorem Reads.map_succ (reads : Reads steps) {tree : Tree} {value : Value}
    (read : Tree.readFrom (steps + 1) (.openMap :: lexemes) = (tree, rest))
    (success : tree.value depth = .ok value) (orderly : Orderly rest) : Orderly lexemes := by
  by_cases closed : ∃ behind, lexemes = .closeMap :: behind
  · obtain ⟨behind, rfl⟩ := closed
    cases read
    exact orderly.close rfl
  · rw [Tree.readFrom.eq_11 _ _ (fun behind same => closed ⟨behind, same⟩)] at read
    cases read
    obtain ⟨inner, values, valued⟩ := Tree.value_map_eq_ok success
    exact (reads.members rfl valued orderly).1

theorem Reads.tree_succ (reads : Reads steps) {tree : Tree} {value : Value}
    (read : Tree.readFrom (steps + 1) lexemes = (tree, rest))
    (success : tree.value depth = .ok value) (orderly : Orderly rest) (ended : Begins ends rest) :
    Orderly lexemes ∧ Begins opens lexemes := by
  cases lexemes with
  | nil =>
      cases read
      cases success
  | cons first behind =>
      cases first with
      | null =>
          cases read
          exact ⟨.cons trivial ended orderly, .cons rfl _⟩
      | flag on =>
          cases read
          exact ⟨.cons trivial ended orderly, .cons rfl _⟩
      | number spelling =>
          cases read
          obtain ⟨number, numbered, -⟩ := map_eq_ok_iff.mp success
          have meaningful : Meaningful (.number spelling) := by
            rw [Number.read] at numbered
            split at numbered
            · cases numbered
            · rename_i parsed
              exact Option.isSome_iff_exists.mpr ⟨_, parsed⟩
          exact ⟨.cons meaningful ended orderly, .cons rfl _⟩
      | text quoted =>
          cases read
          obtain ⟨content, meant, -⟩ := map_eq_ok_iff.mp success
          exact ⟨.cons ⟨content, meant⟩ trivial orderly, .cons rfl _⟩
      | openList => exact ⟨.cons trivial trivial (reads.list_succ read success orderly), .cons rfl _⟩
      | openMap => exact ⟨.cons trivial trivial (reads.map_succ read success orderly), .cons rfl _⟩
      | closeList | closeMap | colon | comma | misspelt | stray =>
          cases read
          cases success

theorem Reads.elements_succ (reads : Reads steps) {elements : Elements} {values : List Value}
    (read : Elements.readFrom (steps + 1) lexemes = (elements, rest))
    (success : elements.values depth = .ok values) (orderly : Orderly rest) :
    Orderly lexemes ∧ Begins opens lexemes := by
  rw [Elements.readFrom] at read
  rcases front : Tree.readFrom steps lexemes with ⟨tree, behind⟩
  rw [front] at read
  dsimp only at read
  split at read
  · cases read
    cases Elements.ending_eq_closed success
  · cases read
    obtain ⟨⟨value, valued⟩, -⟩ := Elements.values_item_eq_ok success
    exact reads.tree front valued (orderly.close rfl) (.cons rfl _)
  · cases read
    cases Elements.ending_eq_closed success
  · cases read
    obtain ⟨⟨value, valued⟩, more, valuedMore⟩ := Elements.values_item_eq_ok success
    obtain ⟨orderlyBehind, opens⟩ := reads.elements rfl valuedMore orderly
    exact reads.tree front valued (.cons trivial opens orderlyBehind) (.cons rfl _)
  · cases read
    cases Elements.ending_eq_closed success

theorem Reads.entry_succ (reads : Reads steps) {key : Text} {members : Members}
    {values : List (String × Value)}
    (read : Members.readFrom (steps + 1) (.text key :: .colon :: lexemes) = (members, rest))
    (success : members.values depth = .ok values) (orderly : Orderly rest) :
    (∃ name, key.read = .ok name) ∧ Orderly lexemes := by
  rw [Members.readFrom.eq_4] at read
  rcases front : Tree.readFrom steps lexemes with ⟨tree, behind⟩
  rw [front] at read
  dsimp only at read
  split at read
  · cases read
    cases Members.ending_eq_closed success
  · cases read
    obtain ⟨named, ⟨value, valued⟩, -⟩ := Members.values_entry_eq_ok success
    exact ⟨named, (reads.tree front valued (orderly.close rfl) (.cons rfl _)).1⟩
  · cases read
    cases Members.ending_eq_closed success
  · cases read
    cases Members.ending_eq_closed success
  · cases read
    obtain ⟨named, ⟨value, valued⟩, more, valuedMore⟩ := Members.values_entry_eq_ok success
    obtain ⟨orderlyBehind, opens⟩ := reads.members rfl valuedMore orderly
    exact ⟨named, (reads.tree front valued (.cons trivial opens orderlyBehind) (.cons rfl _)).1⟩
  · cases read
    cases Members.ending_eq_closed success

theorem Reads.members_succ (reads : Reads steps) {members : Members}
    {values : List (String × Value)}
    (read : Members.readFrom (steps + 1) lexemes = (members, rest))
    (success : members.values depth = .ok values) (orderly : Orderly rest) :
    Orderly lexemes ∧ Begins opens lexemes := by
  rcases lexemes with _ | ⟨first, behind⟩
  · cases read
    cases success
  cases first with
  | text key =>
      refine ⟨?_, .cons rfl _⟩
      rcases behind with _ | ⟨next, behind⟩
      · cases read
        obtain ⟨-, ⟨value, missing⟩, -⟩ := Members.values_entry_eq_ok success
        cases missing
      cases next with
      | colon =>
          obtain ⟨named, inner⟩ := reads.entry_succ read success orderly
          exact .cons named trivial (.cons trivial trivial inner)
      | _ =>
          cases read
          obtain ⟨-, ⟨value, missing⟩, -⟩ := Members.values_entry_eq_ok success
          cases missing
  | _ =>
      cases read
      cases success

theorem reads (steps : Nat) : Reads steps := by
  induction steps with
  | zero =>
      constructor
      all_goals
        intro depth lexemes rest result value read success
        cases read
        cases success
  | succ steps ih => exact ⟨ih.tree_succ, ih.elements_succ, ih.members_succ⟩

/-- A text holds a value if the tree that is read from it has one and nothing is left over. -/
theorem Value.read_eq_ok_iff {text : List Char} {value : Value} :
    Value.read text = .ok value ↔ (Tree.read (Lexeme.scan text)).1.value maxDepth = .ok value ∧
      (Tree.read (Lexeme.scan text)).2 = [] := by
  rw [Value.read]
  rcases Tree.read (Lexeme.scan text) with ⟨tree, rest⟩
  dsimp only
  rw [bind_eq_ok_iff]
  constructor
  · rintro ⟨held, valued, ended⟩
    split at ended
    · cases ended
      exact ⟨valued, ‹_›⟩
    · cases ended
  · rintro ⟨valued, whole⟩
    exact ⟨value, valued, if_pos whole⟩

/-- The lexemes of a text that holds a value are in order. -/
theorem orderly_of_read {text : List Char} {value : Value} (success : Value.read text = .ok value) :
    Orderly (Lexeme.scan text) := by
  obtain ⟨valued, whole⟩ := Value.read_eq_ok_iff.mp success
  refine ((reads _).tree rfl valued ?_ ?_).1
  · rw [Tree.read] at whole
    rw [whole]
    exact .nil
  · intro next first
    rw [Tree.read] at whole
    rw [whole] at first
    cases first

end ControlStore.Json
