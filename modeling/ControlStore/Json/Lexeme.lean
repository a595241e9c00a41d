import ControlStore.Json.Text

set_option autoImplicit false

/-!
Lexemes of strict JSON: marks, quoted texts, numbers and the three words. Texts and numbers keep
their spelling; what they mean is asked later, and only of those that matter.
-/
namespace ControlStore.Json

-- Sums are those of the core library, whatever else is imported beside this module.
attribute [local instance (2000)] Zero.ofOfNat0

/-- A lexeme of strict JSON. -/
inductive Lexeme where
  | openMap
  | closeMap
  | openList
  | closeList
  | colon
  | comma
  | text (text : Text)
  | number (spelling : List Char)
  | null
  | flag (on : Bool)
  /-- A bare word other than `null`, `true` and `false`. -/
  | misspelt
  | stray
deriving DecidableEq, Repr

namespace Lexeme

def isBlank (c : Char) : Bool := c == ' ' || c == '\n' || c == '\t' || c == '\r'

/-- Whether a character can be part of a number. -/
def isNumeric (c : Char) : Bool :=
  c.isDigit || c == '-' || c == '+' || c == '.' || c == 'e' || c == 'E'

/-- The lexeme of a bare word. -/
def ofWord (word : List Char) : Lexeme :=
  if word = ['n', 'u', 'l', 'l'] then null
  else if word = ['t', 'r', 'u', 'e'] then flag true
  else if word = ['f', 'a', 'l', 's', 'e'] then flag false
  else misspelt

/-- The lexeme of a quoted text, from what follows its opening quote. -/
def ofQuoted (rest : List Char) : Lexeme :=
  let length := Text.bodyLength rest
  text ⟨rest.take length, (((rest.drop length).take 4).map Char.utf8Size).sum⟩

/-- The lexeme that a character begins, and how many characters behind that one belong to it. -/
def front (first : Char) (rest : List Char) : Lexeme × Nat :=
  if first = '{' then (openMap, 0)
  else if first = '}' then (closeMap, 0)
  else if first = '[' then (openList, 0)
  else if first = ']' then (closeList, 0)
  else if first = ':' then (colon, 0)
  else if first = ',' then (comma, 0)
  else if first = '"' then (ofQuoted rest, Text.bodyLength rest + 1)
  else if first.isDigit || first == '-' then
    let more := rest.takeWhile isNumeric
    (number (first :: more), more.length)
  else if first.isAlpha then
    let more := rest.takeWhile Char.isAlpha
    (ofWord (first :: more), more.length)
  else (stray, 0)

/-- The lexemes of a text, behind as many characters as belong to one already cut. -/
def scanFrom : Nat → List Char → List Lexeme
  | _, [] => []
  | passing + 1, _ :: rest => scanFrom passing rest
  | 0, first :: rest =>
      if isBlank first then scanFrom 0 rest
      else (front first rest).1 :: scanFrom (front first rest).2 rest

def scan (source : List Char) : List Lexeme := scanFrom 0 source

end Lexeme

end ControlStore.Json
