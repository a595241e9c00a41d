import ControlStore.Document.Fault
import ControlStore.Geometry
import ControlStore.Json.Value
import ControlStore.Record

set_option autoImplicit false

/-!
Program documents. A document is read from the tree of its text in the order of the text, so the
first problem met is the one reported. Its parts may be written as maps or, in the order of their
fields, as lists.
-/
namespace ControlStore

-- Powers are those of the core library, whatever else is imported beside this module.
attribute [local instance (2000)] instPowNat

/-- A state as a document gives it; its transition is any value. -/
structure StateEntry where
  name : String
  control : Record
  next : Option Json.Value

/-- A program document. -/
structure Document where
  geometry : Option Geometry
  opcodes : NameMap Nat
  defaults : NameMap Value
  states : List StateEntry

namespace Document

open Json (Tree Elements Members Text)

/-- Passes on a fault of the text itself. -/
def lift {α : Type} : Except Json.Fault α → Except Fault α
  | .ok value => .ok value
  | .error fault => .error (.json fault)

/-- Fails if there is a fault. -/
def check : Option Json.Fault → Except Fault Unit
  | none => .ok ()
  | some fault => .error (.json fault)

/-- What stands in a place, when it is not what the place wants. -/
def found : Tree → Except Json.Fault Found
  | .null => .ok .null
  | .flag on => .ok (.flag on)
  | .number spelling => do
      match ← Json.Number.read spelling with
      | .integer value => return .integer value
      | .decimal .. => return .decimal
  | .text text => .text <$> text.read
  | .list _ => .ok .list
  | .map _ => .ok .map
  | .broken fault => .error fault

def refuse {α : Type} (expected : Expected) (tree : Tree) : Except Fault α := do
  let found ← lift (found tree)
  throw (.wrongKind found expected)

/-! ### Plain values -/

def numberLimit : Int := 2 ^ (32 : Nat)

/-- A number of 32 bits. -/
def readNumber : Tree → Except Fault Nat
  | .number spelling => do
      match ← lift (Json.Number.read spelling) with
      | .integer value =>
          if 0 ≤ value ∧ value < numberLimit then return value.toNat
          else throw (.outOfRange value)
      | .decimal .. => throw (.wrongKind .decimal .number)
  | tree => refuse .number tree

/-- A text. -/
def readText : Tree → Except Fault String
  | .text text => lift text.read
  | tree => refuse .text tree

/-- The control value that a value of JSON stands for. -/
def controlValue? : Json.Value → Option Value
  | .flag on => some (.flag on)
  | .number (.integer value) =>
      if 0 ≤ value ∧ value < numberLimit then some (.level value.toNat) else none
  | _ => none

/-- A control value: any value is read and only then judged. -/
def readControlValue (depth : Nat) (tree : Tree) : Except Fault Value := do
  let value ← lift (tree.value depth)
  match controlValue? value with
  | some control => return control
  | none => throw .noControlValue

/-- Members by name; of a repeated name the last value counts. -/
def readEntries {α : Type} (read : Tree → Except Fault α) (held : NameMap α) :
    Members → Except Fault (NameMap α)
  | .done ending => do
      check ending.mapFault?
      return held
  | .entry key tree rest => do
      let name ← lift key.read
      let value ← read tree
      readEntries read (held.insert name value) rest

/-- A map from names to values of one kind. -/
def readMap {α : Type} (read : Tree → Except Fault α) : Tree → Except Fault (NameMap α)
  | .map members => readEntries read .empty members
  | tree => refuse .map tree

/-- The values of a list. -/
def readItems {α : Type} (read : Tree → Except Fault α) : Elements → Except Fault (List α)
  | .done ending => do
      check ending.listFault?
      return []
  | .item tree rest => do
      let value ← read tree
      let values ← readItems read rest
      return value :: values

/-- A list of values of one kind. -/
def readList {α : Type} (read : Tree → Except Fault α) : Tree → Except Fault (List α)
  | .list elements => readItems read elements
  | tree => refuse .list tree

/-! ### Fields -/

/-- A field that may be given once: it is an error if there is a value already. -/
def once {α : Type} (name : String) (held : Option α) (read : Except Fault α) :
    Except Fault (Option α) :=
  if held.isSome then .error (.duplicateField name) else some <$> read

/-- A field that must have been given. -/
def need {α : Type} (name : String) : Option α → Except Fault α
  | some value => .ok value
  | none => .error (.missingField name)

/-- The next element of a part written as a list; at its end `absent` is the field's value. -/
def nextField {α : Type} (read : Tree → Except Fault α) (absent : Except Fault α)
    (elements : Elements) : Except Fault (α × Elements) := do
  match ← lift elements.next with
  | some (tree, rest) => return (← read tree, rest)
  | none => return (← absent, elements)

/-! ### Geometry -/

/-- The fields of a geometry from members; unknown ones are passed over. -/
def readGeometryMembers (stateBits opcodeBits : Option Nat) :
    Members → Except Fault Geometry
  | .done ending => do
      check ending.mapFault?
      return ⟨← need "state_bits" stateBits, ← need "opcode_bits" opcodeBits⟩
  | .entry key tree rest => do
      match ← lift key.read with
      | "state_bits" =>
          let stateBits ← once "state_bits" stateBits (readNumber tree)
          readGeometryMembers stateBits opcodeBits rest
      | "opcode_bits" =>
          let opcodeBits ← once "opcode_bits" opcodeBits (readNumber tree)
          readGeometryMembers stateBits opcodeBits rest
      | _ =>
          check tree.skipFault?
          readGeometryMembers stateBits opcodeBits rest

/-- A geometry. -/
def readGeometry : Tree → Except Fault Geometry
  | .map members => readGeometryMembers none none members
  | .list elements => do
      let (stateBits, elements) ←
        nextField readNumber (.error (.tooShort 0 .geometry)) elements
      let (opcodeBits, elements) ←
        nextField readNumber (.error (.tooShort 1 .geometry)) elements
      check elements.endFault?
      return ⟨stateBits, opcodeBits⟩
  | tree => refuse .geometry tree

/-- A geometry, or none for `null`. -/
def readGeometryOption : Tree → Except Fault (Option Geometry)
  | .null => .ok none
  | tree => some <$> readGeometry tree

/-! ### States -/

/-- The depth left for control values and transitions: a document, its list of states and the
state around them are open. -/
def stateDepth : Nat := Json.maxDepth - 3

def readControl : Tree → Except Fault Record := readMap (readControlValue (stateDepth - 1))

/-- A transition of any form, or none for `null`. -/
def readNext : Tree → Except Fault (Option Json.Value)
  | .null => .ok none
  | tree => lift (some <$> tree.value stateDepth)

/-- The fields of a state from members. -/
def readStateMembers (name : Option String) (control : Option Record)
    (next : Option (Option Json.Value)) : Members → Except Fault StateEntry
  | .done ending => do
      check ending.mapFault?
      return ⟨← need "name" name, control.getD .empty, next.getD none⟩
  | .entry key tree rest => do
      match ← lift key.read with
      | "name" =>
          let name ← once "name" name (readText tree)
          readStateMembers name control next rest
      | "control" =>
          let control ← once "control" control (readControl tree)
          readStateMembers name control next rest
      | "next" =>
          let next ← once "next" next (readNext tree)
          readStateMembers name control next rest
      | other => throw (.unknownField other .state)

/-- A state. -/
def readState : Tree → Except Fault StateEntry
  | .map members => readStateMembers none none none members
  | .list elements => do
      let (name, elements) ← nextField readText (.error (.tooShort 0 .state)) elements
      let (control, elements) ← nextField readControl (.ok .empty) elements
      let (next, elements) ← nextField readNext (.ok none) elements
      check elements.endFault?
      return ⟨name, control, next⟩
  | tree => refuse .state tree

/-! ### Documents -/

def readOpcodes : Tree → Except Fault (NameMap Nat) := readMap readNumber

/-- The defaults of a document. -/
def readDefaults : Tree → Except Fault (NameMap Value) :=
  readMap (readControlValue (Json.maxDepth - 2))

/-- The fields of a document from members. -/
def readDocumentMembers (geometry : Option (Option Geometry)) (opcodes : Option (NameMap Nat))
    (defaults : Option (NameMap Value)) (states : Option (List StateEntry)) :
    Members → Except Fault Document
  | .done ending => do
      check ending.mapFault?
      return ⟨geometry.getD none, ← need "opcodes" opcodes, defaults.getD .empty,
        ← need "states" states⟩
  | .entry key tree rest => do
      match ← lift key.read with
      | "geometry" =>
          let geometry ← once "geometry" geometry (readGeometryOption tree)
          readDocumentMembers geometry opcodes defaults states rest
      | "opcodes" =>
          let opcodes ← once "opcodes" opcodes (readOpcodes tree)
          readDocumentMembers geometry opcodes defaults states rest
      | "defaults" =>
          let defaults ← once "defaults" defaults (readDefaults tree)
          readDocumentMembers geometry opcodes defaults states rest
      | "states" =>
          let states ← once "states" states (readList readState tree)
          readDocumentMembers geometry opcodes defaults states rest
      | other => throw (.unknownField other .document)

/-- A document from a tree. -/
def ofTree : Tree → Except Fault Document
  | .map members => readDocumentMembers none none none none members
  | .list elements => do
      let (geometry, elements) ← nextField readGeometryOption (.ok none) elements
      let (opcodes, elements) ←
        nextField readOpcodes (.error (.tooShort 1 .document)) elements
      let (defaults, elements) ← nextField readDefaults (.ok .empty) elements
      let (states, elements) ←
        nextField (readList readState) (.error (.tooShort 3 .document)) elements
      check elements.endFault?
      return ⟨geometry, opcodes, defaults, states⟩
  | tree => refuse .document tree

/-- The document that a text of strict JSON holds; nothing but blanks may follow it. -/
def read (text : List Char) : Except Fault Document := do
  let (tree, rest) := Tree.read (Json.Lexeme.scan text)
  let document ← ofTree tree
  if rest = [] then return document else throw (.json .trailingCharacters)

end Document

end ControlStore
