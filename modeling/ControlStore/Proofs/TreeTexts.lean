import ControlStore.Proofs.LexemeOrder

set_option autoImplicit false

/-!
The quoted texts of a tree. Which tree is built does not depend on what the texts in it are; so its
value stays if each text is replaced by one that means the same.
-/
namespace ControlStore.Json

variable (f : Text → Text)

def Lexeme.mapText : Lexeme → Lexeme
  | text quoted => text (f quoted)
  | lexeme => lexeme

mutual

def Tree.mapText : Tree → Tree
  | .text quoted => .text (f quoted)
  | .list elements => .list elements.mapText
  | .map members => .map members.mapText
  | .null => .null
  | .flag on => .flag on
  | .number spelling => .number spelling
  | .broken fault => .broken fault

def Elements.mapText : Elements → Elements
  | .done ending => .done ending
  | .item value rest => .item value.mapText rest.mapText

def Members.mapText : Members → Members
  | .done ending => .done ending
  | .entry key value rest => .entry (f key) value.mapText rest.mapText

end

/-- Replacing texts in lexemes replaces them in what is read from these in a number of steps. -/
structure Natural (steps : Nat) : Prop where
  tree : ∀ lexemes : List Lexeme, Tree.readFrom steps (lexemes.map (Lexeme.mapText f)) =
    (Tree.readFrom steps lexemes).map (Tree.mapText f) (List.map (Lexeme.mapText f))
  elements : ∀ lexemes : List Lexeme, Elements.readFrom steps (lexemes.map (Lexeme.mapText f)) =
    (Elements.readFrom steps lexemes).map (Elements.mapText f) (List.map (Lexeme.mapText f))
  members : ∀ lexemes : List Lexeme, Members.readFrom steps (lexemes.map (Lexeme.mapText f)) =
    (Members.readFrom steps lexemes).map (Members.mapText f) (List.map (Lexeme.mapText f))

variable {f} {steps : Nat}

theorem Natural.tree_succ (natural : Natural f steps) (lexemes : List Lexeme) :
    Tree.readFrom (steps + 1) (lexemes.map (Lexeme.mapText f)) =
      (Tree.readFrom (steps + 1) lexemes).map (Tree.mapText f) (List.map (Lexeme.mapText f)) := by
  rcases lexemes with _ | ⟨first, behind⟩
  · rfl
  cases first with
  | openList =>
      have inside := congrArg (fun read => (Tree.list read.1, read.2)) (natural.elements behind)
      rcases behind with _ | ⟨next, behind⟩
      · rfl
      · cases next with
        | closeList => rfl
        | _ => exact inside
  | openMap =>
      have inside := congrArg (fun read => (Tree.map read.1, read.2)) (natural.members behind)
      rcases behind with _ | ⟨next, behind⟩
      · exact inside
      · cases next with
        | closeMap => rfl
        | _ => exact inside
  | _ => rfl

theorem Natural.elements_succ (natural : Natural f steps) (lexemes : List Lexeme) :
    Elements.readFrom (steps + 1) (lexemes.map (Lexeme.mapText f)) =
      (Elements.readFrom (steps + 1) lexemes).map (Elements.mapText f)
        (List.map (Lexeme.mapText f)) := by
  rw [Elements.readFrom, Elements.readFrom, natural.tree]
  rcases Tree.readFrom steps lexemes with ⟨tree, rest⟩
  rcases rest with _ | ⟨next, behind⟩
  · rfl
  cases next with
  | comma =>
      have later := congrArg (fun read => (Elements.item (tree.mapText f) read.1, read.2))
        (natural.elements behind)
      rcases behind with _ | ⟨after, behind⟩
      · exact later
      · cases after with
        | closeList => rfl
        | _ => exact later
  | _ => rfl

theorem Natural.entry_succ (natural : Natural f steps) (key : Text) (lexemes : List Lexeme) :
    Members.readFrom (steps + 1) (.text (f key) :: .colon :: lexemes.map (Lexeme.mapText f)) =
      (Members.readFrom (steps + 1) (.text key :: .colon :: lexemes)).map (Members.mapText f)
        (List.map (Lexeme.mapText f)) := by
  rw [Members.readFrom.eq_4, Members.readFrom.eq_4, natural.tree]
  rcases Tree.readFrom steps lexemes with ⟨tree, rest⟩
  rcases rest with _ | ⟨next, behind⟩
  · rfl
  cases next with
  | comma =>
      have later := congrArg (fun read => (Members.entry (f key) (tree.mapText f) read.1, read.2))
        (natural.members behind)
      rcases behind with _ | ⟨after, behind⟩
      · rfl
      · cases after with
        | closeMap => rfl
        | _ => exact later
  | _ => rfl

theorem Natural.members_succ (natural : Natural f steps) (lexemes : List Lexeme) :
    Members.readFrom (steps + 1) (lexemes.map (Lexeme.mapText f)) =
      (Members.readFrom (steps + 1) lexemes).map (Members.mapText f)
        (List.map (Lexeme.mapText f)) := by
  rcases lexemes with _ | ⟨first, behind⟩
  · rfl
  cases first with
  | text key =>
      rcases behind with _ | ⟨next, behind⟩
      · rfl
      · cases next with
        | colon => exact natural.entry_succ key behind
        | _ => rfl
  | _ => rfl

variable (f) in
theorem natural (steps : Nat) : Natural f steps := by
  induction steps with
  | zero => exact ⟨fun _ => rfl, fun _ => rfl, fun _ => rfl⟩
  | succ steps ih => exact ⟨ih.tree_succ, ih.elements_succ, ih.members_succ⟩

/-! ### Values -/

/-- A replacement under which every text that can be read keeps its meaning, and no other text
gets one. -/
def KeepsMeaning (f : Text → Text) : Prop :=
  ∀ (quoted : Text) (content : String), (f quoted).read = .ok content ↔ quoted.read = .ok content

mutual

theorem Tree.value_mapText (keeps : KeepsMeaning f) (tree : Tree) (depth : Nat) (value : Value) :
    (tree.mapText f).value depth = .ok value ↔ tree.value depth = .ok value := by
  match tree, depth with
  | .null, _ | .flag _, _ | .number _, _ | .broken _, _ => exact Iff.rfl
  | .text quoted, _ =>
      simp only [Tree.mapText, Tree.value, map_eq_ok_iff, keeps quoted]
  | .list _, 0 | .map _, 0 => exact Iff.rfl
  | .list elements, depth + 1 =>
      simp only [Tree.mapText, Tree.value, map_eq_ok_iff, elements.values_mapText keeps depth]
  | .map members, depth + 1 =>
      simp only [Tree.mapText, Tree.value, map_eq_ok_iff, members.values_mapText keeps depth]

theorem Elements.values_mapText (keeps : KeepsMeaning f) (elements : Elements) (depth : Nat)
    (values : List Value) :
    (elements.mapText f).values depth = .ok values ↔ elements.values depth = .ok values := by
  match elements with
  | .done _ => exact Iff.rfl
  | .item tree rest =>
      simp only [Elements.mapText, Elements.values, bind_eq_ok_iff, tree.value_mapText keeps depth,
        rest.values_mapText keeps depth]

theorem Members.values_mapText (keeps : KeepsMeaning f) (members : Members) (depth : Nat)
    (values : List (String × Value)) :
    (members.mapText f).values depth = .ok values ↔ members.values depth = .ok values := by
  match members with
  | .done _ => exact Iff.rfl
  | .entry key tree rest =>
      simp only [Members.mapText, Members.values, bind_eq_ok_iff, keeps key,
        tree.value_mapText keeps depth, rest.values_mapText keeps depth]

end

/-- What a text holds can be told from its lexemes with their texts replaced. -/
theorem Value.read_eq_ok_iff_map (keeps : KeepsMeaning f) {text : List Char} {value : Value} :
    Value.read text = .ok value ↔
      (Tree.read ((Lexeme.scan text).map (Lexeme.mapText f))).1.value maxDepth = .ok value ∧
        (Tree.read ((Lexeme.scan text).map (Lexeme.mapText f))).2 = [] := by
  have replaced : Tree.read ((Lexeme.scan text).map (Lexeme.mapText f)) =
      (Tree.read (Lexeme.scan text)).map (Tree.mapText f) (List.map (Lexeme.mapText f)) := by
    rw [Tree.read, List.length_map, (natural f _).tree, Tree.read]
  rw [Value.read_eq_ok_iff, replaced, Prod.map_fst, Prod.map_snd, Tree.value_mapText keeps,
    List.map_eq_nil_iff]

/-- Texts whose lexemes are the same but for replaced texts hold the same value. -/
theorem Value.read_eq_ok_of_map_eq (keeps : KeepsMeaning f) {first second : List Char}
    {value : Value} (same : (Lexeme.scan first).map (Lexeme.mapText f) =
      (Lexeme.scan second).map (Lexeme.mapText f)) (success : Value.read first = .ok value) :
    Value.read second = .ok value := by
  rw [Value.read_eq_ok_iff_map keeps] at success ⊢
  rwa [← same]

end ControlStore.Json
