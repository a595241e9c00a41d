import ControlStore.Document.Form
import ControlStore.Document.Read

set_option autoImplicit false

/-!
What a document consists of, whatever the order it is read in, and what becomes of its states. A
part of it has fields, each given once, be it under its name in a map or at its place in a list; in
a map of names the last value of a name counts.
-/
namespace ControlStore

-- Powers are those of the core library, whatever else is imported beside this module.
attribute [local instance (2000)] instPowNat

open Json (Tree Elements Members Text)

namespace Document

/-! ### Plain values -/

/-- A number of 32 bits. -/
inductive NumberOf : Tree → Nat → Prop where
  | number {spelling : List Char} {value : Nat} :
      Json.Number.read spelling = .ok (.integer value) → value < 2 ^ (32 : Nat) →
      NumberOf (.number spelling) value

inductive TextOf : Tree → String → Prop where
  | text {text : Text} {content : String} : text.read = .ok content → TextOf (.text text) content

/-- A control value: whether a strobe is on, or a number. -/
inductive ControlValueOf : Tree → Value → Prop where
  | flag (on : Bool) : ControlValueOf (.flag on) (.flag on)
  | level {tree : Tree} {value : Nat} : NumberOf tree value → ControlValueOf tree (.level value)

/-- What is given for a transition: any value that can be read in its place, or `null` for none. Of
the 127 lists and maps that may be open within each other, three are open around it: the document,
its list of states and the state. -/
inductive GivenNext : Tree → Option Json.Value → Prop where
  | null : GivenNext .null none
  | value {tree : Tree} {value : Json.Value} : tree ≠ .null →
      tree.value 124 = .ok value → GivenNext tree (some value)

/-! ### Maps and lists -/

/-- The entries of a map that is closed and whose keys can be read. -/
inductive Named : Members → List (String × Tree) → Prop where
  | done : Named (.done .closed) []
  | entry {key : Text} {name : String} {tree : Tree} {rest : Members}
      {entries : List (String × Tree)} : key.read = .ok name → Named rest entries →
      Named (.entry key tree rest) ((name, tree) :: entries)

/-- The elements of a list that is closed. -/
inductive Listed : Elements → List Tree → Prop where
  | done : Listed (.done .closed) []
  | item {tree : Tree} {rest : Elements} {trees : List Tree} : Listed rest trees →
      Listed (.item tree rest) (tree :: trees)

/-- A tree that is a map from names to values: every entry gives a value, and what the last entry of
a name gives is the value of the name. -/
inductive MapOf {α : Type} (Gives : Tree → α → Prop) : Tree → NameMap α → Prop where
  | entries {members : Members} {entries : List (String × Tree)} {map : NameMap α} :
      Named members entries → (∀ entry ∈ entries, ∃ value, Gives entry.2 value) →
      (∀ name value, map.find? name = some value ↔
        ∃ tree, entries.reverse.lookup name = some tree ∧ Gives tree value) →
      MapOf Gives (.map members) map

/-- A tree that is a list of values. -/
inductive ListOf {α : Type} (Gives : Tree → α → Prop) : Tree → List α → Prop where
  | elements {elements : Elements} {trees : List Tree} {values : List α} :
      Listed elements trees → List.Forall₂ Gives trees values → ListOf Gives (.list elements) values

/-! ### Fields -/

/-- The fields that a tree gives for a part. -/
inductive HasFields (part : Expected) : Tree → List (String × Tree) → Prop where
  | map {members : Members} {fields : List (String × Tree)} : Named members fields →
      (fields.map (·.1)).Nodup → (∀ field ∈ fields, field.1 ∈ part.fields) →
      HasFields part (.map members) fields
  /-- The elements belong to the fields of the part in their order; the last may be left out. -/
  | list {elements : Elements} {trees : List Tree} : Listed elements trees →
      trees.length ≤ part.fields.length →
      HasFields part (.list elements) (part.fields.zip trees)

/-- A field that must be there. -/
inductive RequiredField {α : Type} (Gives : Tree → α → Prop) : Option Tree → α → Prop where
  | given {tree : Tree} {value : α} : Gives tree value → RequiredField Gives (some tree) value

/-- A field that need not be there. -/
inductive OptionalField {α : Type} (absent : α) (Gives : Tree → α → Prop) :
    Option Tree → α → Prop where
  | absent : OptionalField absent Gives none absent
  | given {tree : Tree} {value : α} : Gives tree value →
      OptionalField absent Gives (some tree) value

end Document

open Document

/-! ### Parts -/

/-- A geometry and the fields that give it. -/
structure Geometry.GivenBy (geometry : Geometry) (fields : List (String × Tree)) : Prop where
  stateBits : RequiredField NumberOf (fields.lookup "state_bits") geometry.stateBits
  opcodeBits : RequiredField NumberOf (fields.lookup "opcode_bits") geometry.opcodeBits

/-- A state and the fields that give it. -/
structure StateEntry.GivenBy (entry : StateEntry) (fields : List (String × Tree)) : Prop where
  name : RequiredField TextOf (fields.lookup "name") entry.name
  control : OptionalField .empty (MapOf ControlValueOf) (fields.lookup "control") entry.control
  next : OptionalField none GivenNext (fields.lookup "next") entry.next

/-- The state that an entry becomes. -/
structure StateEntry.Becomes (entry : StateEntry) (state : State) : Prop where
  name : state.name = entry.name
  control : state.control = entry.control
  next : NextOf entry.next state.next

namespace Document

/-- A tree that is a geometry, or `null` for none. In a map, members of other names are passed over,
however often they occur, if only they can be. -/
inductive GeometryOf : Tree → Option Geometry → Prop where
  | null : GeometryOf .null none
  | map {members : Members} {entries : List (String × Tree)} {geometry : Geometry} :
      Named members entries →
      (∀ field ∈ Expected.geometry.fields, (entries.map (·.1)).count field ≤ 1) →
      (∀ entry ∈ entries, entry.1 ∉ Expected.geometry.fields → entry.2.skipFault? = none) →
      geometry.GivenBy entries → GeometryOf (.map members) (some geometry)
  | list {elements : Elements} {fields : List (String × Tree)} {geometry : Geometry} :
      HasFields .geometry (.list elements) fields → geometry.GivenBy fields →
      GeometryOf (.list elements) (some geometry)

/-- A tree that is a state. -/
inductive StateOf : Tree → StateEntry → Prop where
  | fields {tree : Tree} {fields : List (String × Tree)} {entry : StateEntry} :
      HasFields .state tree fields → entry.GivenBy fields → StateOf tree entry

/-- A document and the fields that give it. -/
structure GivenBy (document : Document) (fields : List (String × Tree)) : Prop where
  geometry : OptionalField none GeometryOf (fields.lookup "geometry") document.geometry
  opcodes : RequiredField (MapOf NumberOf) (fields.lookup "opcodes") document.opcodes
  defaults : OptionalField .empty (MapOf ControlValueOf) (fields.lookup "defaults")
    document.defaults
  states : RequiredField (ListOf StateOf) (fields.lookup "states") document.states

/-- A tree that is a document. -/
inductive DocumentOf : Tree → Document → Prop where
  | fields {tree : Tree} {fields : List (String × Tree)} {document : Document} :
      HasFields .document tree fields → document.GivenBy fields → DocumentOf tree document

/-- The trees of the states of a document. -/
inductive StatesOf : Tree → List Tree → Prop where
  | listed {tree : Tree} {fields : List (String × Tree)} {elements : Elements}
      {entries : List Tree} : HasFields .document tree fields →
      fields.lookup "states" = some (.list elements) → Listed elements entries →
      StatesOf tree entries

/-- What is given anew for a transition, if it can be read in its place, or nothing. -/
def NewNext (new : Option Tree) (given : Option Json.Value) : Prop :=
  Option.Rel (fun tree value => tree.value 124 = .ok value) new given

/-- A text of strict JSON is one value that is the document. -/
def WrittenIn (text : List Char) (document : Document) : Prop :=
  ∃ tree, Tree.read (Json.Lexeme.scan text) = (tree, []) ∧ DocumentOf tree document

end Document

end ControlStore
