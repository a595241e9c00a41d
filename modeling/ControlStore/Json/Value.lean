import ControlStore.Json.Number
import ControlStore.Json.Tree

set_option autoImplicit false

/-!
Values of JSON. `Tree.value` reads a value of any form and keeps count of the nesting;
`Tree.skipFault?` passes over one and checks only what cannot be passed over.
-/
namespace ControlStore.Json

/-- A value of JSON. Members stand in the order of the text, repeated keys included. -/
inductive Value where
  | null
  | flag (on : Bool)
  | number (number : Number)
  | text (text : String)
  | list (items : List Value)
  | map (members : List (String × Value))

/-- How deep lists and maps may be nested. -/
def maxDepth : Nat := 127

mutual

/-- The value of a tree in which lists and maps may be nested to a depth. -/
def Tree.value : Nat → Tree → Except Fault Value
  | _, .null => .ok .null
  | _, .flag on => .ok (.flag on)
  | _, .number spelling => .number <$> Number.read spelling
  | _, .text text => .text <$> text.read
  | 0, .list _ => .error .tooDeep
  | depth + 1, .list elements => .list <$> elements.values depth
  | 0, .map _ => .error .tooDeep
  | depth + 1, .map members => .map <$> members.values depth
  | _, .broken fault => .error fault

/-- The values of elements. -/
def Elements.values : Nat → Elements → Except Fault (List Value)
  | _, .done ending =>
      match ending.listFault? with
      | some fault => .error fault
      | none => .ok []
  | depth, .item tree rest => do
      let value ← tree.value depth
      let values ← rest.values depth
      return value :: values

/-- The keys and values of members. -/
def Members.values : Nat → Members → Except Fault (List (String × Value))
  | _, .done ending =>
      match ending.mapFault? with
      | some fault => .error fault
      | none => .ok []
  | depth, .entry key tree rest => do
      let name ← key.read
      let value ← tree.value depth
      let values ← rest.values depth
      return (name, value) :: values

end

mutual

/-- The fault of a value that is passed over, at any depth. -/
def Tree.skipFault? : Tree → Option Fault
  | .null => none
  | .flag _ => none
  | .number spelling => Number.skip spelling
  | .text text => text.skip
  | .list elements => elements.skipFault?
  | .map members => members.skipFault?
  | .broken fault => some fault

/-- The fault of elements that are passed over. Behind a comma a value is due. -/
def Elements.skipFault? : Elements → Option Fault
  | .done .comma => some .expectedValue
  | .done ending => ending.listFault?
  | .item tree rest => tree.skipFault?.or rest.skipFault?

/-- The fault of members that are passed over. Behind a comma a key is due. -/
def Members.skipFault? : Members → Option Fault
  | .done .comma => some .keyNotText
  | .done .commaCut => some .unfinishedMap
  | .done ending => ending.mapFault?
  | .entry key tree rest => key.skip.or (tree.skipFault?.or rest.skipFault?)

end

/-- The value that a text holds; nothing but blanks may follow it. -/
def Value.read (text : List Char) : Except Fault Value := do
  let (tree, rest) := Tree.read (Lexeme.scan text)
  let value ← tree.value maxDepth
  if rest = [] then return value else throw .trailingCharacters

/-- The value of a key; of repeated keys the last counts. -/
def Value.member? (members : List (String × Value)) (name : String) : Option Value :=
  (members.reverse.find? (·.1 == name)).map (·.2)

/-- The text of a value. -/
def Value.text? : Value → Option String
  | .text content => some content
  | _ => none

/-- The truth value of a value. -/
def Value.flag? : Value → Option Bool
  | .flag on => some on
  | _ => none

/-- The texts of a list. -/
def Value.texts? : Value → Option (List String)
  | .list items => items.mapM (·.text?)
  | _ => none

end ControlStore.Json
