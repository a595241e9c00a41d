import ControlStore.Json.Lexeme

set_option autoImplicit false

/-!
The shape of JSON text. A tree is built for every list of lexemes; where the text breaks the
grammar the tree says so at that place. Whoever walks a tree in the order of the text therefore
meets the first problem first, be it a broken place or a value that is not wanted there.
-/
namespace ControlStore.Json

/-- How a list or a map ends. -/
inductive Ending where
  /-- By its closing mark. -/
  | closed
  /-- The text ends instead. -/
  | cut
  /-- By a comma and its closing mark. -/
  | comma
  /-- The text ends behind a comma. -/
  | commaCut
  /-- Something that is no key stands where a key should be. -/
  | badKey
  /-- Something other than a comma or the closing mark follows. -/
  | stray
deriving DecidableEq, Repr

mutual

/-- The shape of a value. -/
inductive Tree where
  | null
  | flag (on : Bool)
  | number (spelling : List Char)
  | text (text : Text)
  | list (elements : Elements)
  | map (members : Members)
  /-- No value stands here. -/
  | broken (fault : Fault)

/-- The elements of a list up to its end. -/
inductive Elements where
  | done (ending : Ending)
  | item (value : Tree) (rest : Elements)

/-- The members of a map up to its end. -/
inductive Members where
  | done (ending : Ending)
  | entry (key : Text) (value : Tree) (rest : Members)

end

mutual

/-- The value at the front and the lexemes behind it. The first argument bounds the number of
steps. -/
def Tree.readFrom : Nat → List Lexeme → Tree × List Lexeme
  | 0, rest => (.broken .tooDeep, rest)
  | _ + 1, [] => (.broken .unfinishedValue, [])
  | steps + 1, first :: rest =>
      match first with
      | .null => (.null, rest)
      | .flag on => (.flag on, rest)
      | .number spelling => (.number spelling, rest)
      | .text text => (.text text, rest)
      | .openList =>
          match rest with
          | [] => (.list (.done .cut), [])
          | .closeList :: rest => (.list (.done .closed), rest)
          | rest =>
              let (elements, rest) := Elements.readFrom steps rest
              (.list elements, rest)
      | .openMap =>
          match rest with
          | .closeMap :: rest => (.map (.done .closed), rest)
          | rest =>
              let (members, rest) := Members.readFrom steps rest
              (.map members, rest)
      | .misspelt => (.broken .expectedWord, rest)
      | _ => (.broken .expectedValue, rest)

/-- An element and all that follow it, and the lexemes behind the list. -/
def Elements.readFrom : Nat → List Lexeme → Elements × List Lexeme
  | 0, rest => (.done .stray, rest)
  | steps + 1, lexemes =>
      let (value, rest) := Tree.readFrom steps lexemes
      match rest with
      | [] => (.item value (.done .cut), [])
      | .closeList :: rest => (.item value (.done .closed), rest)
      | .comma :: .closeList :: rest => (.item value (.done .comma), rest)
      | .comma :: rest =>
          let (more, rest) := Elements.readFrom steps rest
          (.item value more, rest)
      | rest => (.item value (.done .stray), rest)

/-- A member and all that follow it, and the lexemes behind the map. -/
def Members.readFrom : Nat → List Lexeme → Members × List Lexeme
  | 0, rest => (.done .stray, rest)
  | _ + 1, [] => (.done .cut, [])
  | steps + 1, .text key :: rest =>
      match rest with
      | [] => (.entry key (.broken .unfinishedMap) (.done .cut), [])
      | .colon :: rest =>
          let (value, rest) := Tree.readFrom steps rest
          match rest with
          | [] => (.entry key value (.done .cut), [])
          | .closeMap :: rest => (.entry key value (.done .closed), rest)
          | [.comma] => (.entry key value (.done .commaCut), [])
          | .comma :: .closeMap :: rest => (.entry key value (.done .comma), rest)
          | .comma :: rest =>
              let (more, rest) := Members.readFrom steps rest
              (.entry key value more, rest)
          | rest => (.entry key value (.done .stray), rest)
      | rest => (.entry key (.broken .expectedColon) (.done .stray), rest)
  | _ + 1, rest => (.done .badKey, rest)

end

/-- The value at the front of some lexemes and the lexemes behind it. -/
def Tree.read (lexemes : List Lexeme) : Tree × List Lexeme :=
  Tree.readFrom (2 * lexemes.length + 2) lexemes

/-! ### Endings -/

/-- The fault of a list's ending, met while its elements are read. -/
def Ending.listFault? : Ending → Option Fault
  | .closed => none
  | .cut => some .unfinishedList
  | .comma => some .trailingComma
  | _ => some .expectedListEnd

/-- The fault of a map's ending. -/
def Ending.mapFault? : Ending → Option Fault
  | .closed => none
  | .cut => some .unfinishedMap
  | .comma => some .trailingComma
  | .commaCut => some .unfinishedValue
  | .badKey => some .keyNotText
  | .stray => some .expectedMapEnd

/-- The next element and those behind it, or nothing at the end. -/
def Elements.next : Elements → Except Fault (Option (Tree × Elements))
  | .item value rest => .ok (some (value, rest))
  | .done ending =>
      match ending.listFault? with
      | some fault => .error fault
      | none => .ok none

/-- The fault of a list that should end here, because all that is wanted of it has been read. -/
def Elements.endFault? : Elements → Option Fault
  | .done .closed => none
  | .done .cut => some .unfinishedList
  | .done .comma => some .trailingComma
  | _ => some .trailingCharacters

end ControlStore.Json
