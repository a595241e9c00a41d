import ControlStore.Json.Tree

set_option autoImplicit false

/-!
Documents with one transition given anew or taken away. The rest of the document stays as it is
written, be its parts maps or lists.
-/
namespace ControlStore.Document

open Json (Tree Elements Members Text)

/-- Changes the values of a name. -/
def modifyMember (name : String) (change : Tree → Tree) : Members → Members
  | .done ending => .done ending
  | .entry key tree rest =>
      .entry key (if key.read.toOption = some name then change tree else tree)
        (modifyMember name change rest)

/-- Changes the element at a position. -/
def modifyElement (change : Tree → Tree) : Nat → Elements → Elements
  | _, .done ending => .done ending
  | 0, .item tree rest => .item (change tree) rest
  | position + 1, .item tree rest => .item tree (modifyElement change position rest)

def nextKey : Text := ⟨['n', 'e', 'x', 't'], 1⟩

/-- The members of a state with its transition given anew, behind all others if there was none, or
taken away. -/
def putNext (new : Option Tree) : Members → Members
  | .done ending =>
      match new with
      | some tree => .entry nextKey tree (.done ending)
      | none => .done ending
  | .entry key tree rest =>
      if key.read.toOption = some "next" then
        match new with
        | some tree => .entry key tree rest
        | none => rest
      else .entry key tree (putNext new rest)

/-- The end of a state that is written as a list. -/
def endNext : Option Tree → Elements
  | some tree => .item tree (.done .closed)
  | none => .done .closed

/-- A state with its transition given anew or taken away. Before a transition a list needs control
values, if only an empty map of them. -/
def editState (new : Option Tree) : Tree → Tree
  | .map members => .map (putNext new members)
  | .list (.item name (.item control _)) => .list (.item name (.item control (endNext new)))
  | .list (.item name (.done ending)) =>
      match new with
      | some tree => .list (.item name (.item (.map (.done .closed)) (endNext (some tree))))
      | none => .list (.item name (.done ending))
  | tree => tree

/-- A list of states with one edited. -/
def editStates (position : Nat) (new : Option Tree) : Tree → Tree
  | .list states => .list (modifyElement (editState new) position states)
  | tree => tree

/-- A document with the transition of a state given anew or taken away. -/
def editNext (position : Nat) (new : Option Tree) : Tree → Tree
  | .map members => .map (modifyMember "states" (editStates position new) members)
  | .list fields => .list (modifyElement (editStates position new) 3 fields)
  | tree => tree

end ControlStore.Document
