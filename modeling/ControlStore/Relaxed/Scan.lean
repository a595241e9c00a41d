import ControlStore.Hex

set_option autoImplicit false

/-!
Scanning of relaxed program text. The text is cut into chunks; every chunk is the longest piece
that some kind matches at its place. Blanks and comments are chunks like all others, so the chunks
and what is left behind them are the whole text.
-/
namespace ControlStore.Relaxed

/-- The kinds of chunks. -/
inductive Kind where
  | blanks
  | lineComment
  | blockComment
  | braceOpen
  | braceClose
  | bracketOpen
  | bracketClose
  | colon
  | comma
  | doubleQuoted
  | singleQuoted
  | hex
  | number
  | word
deriving DecidableEq, Repr

namespace Kind

/-- All kinds. -/
def all : List Kind :=
  [blanks, lineComment, blockComment, braceOpen, braceClose, bracketOpen, bracketClose, colon,
    comma, doubleQuoted, singleQuoted, hex, number, word]

/-- Whether a kind only separates tokens. -/
def isGap : Kind → Bool
  | blanks | lineComment | blockComment => true
  | _ => false

end Kind

/-! ### Character classes and bodies -/

/-- A blank, tab, carriage return, newline or form feed. -/
def isBlank (c : Char) : Bool :=
  c == ' ' || c == '\t' || c == '\r' || c == '\n' || c == '\x0c'

def isWordStart (c : Char) : Bool := c.isAlpha || c == '_'

def isWordRest (c : Char) : Bool := isWordStart c || c.isDigit

def isHexDigit (c : Char) : Bool := (Hex.digitValue? c).isSome

/-- A character that single quotes can enclose. -/
def isPlain (c : Char) : Bool := c != '\x27' && c != '\n'

def run (p : Char → Bool) (text : List Char) : Nat := (text.takeWhile p).length

/-- The length of a block comment's body. A star is read with the character after it, which must
not be a slash. -/
def blockBody : List Char → Nat
  | [] => 0
  | '*' :: '/' :: _ => 0
  | '*' :: _ :: rest => blockBody rest + 2
  | ['*'] => 0
  | _ :: rest => blockBody rest + 1

/-- The length of a double-quoted text's body. A backslash is read with the character after it,
which must not be a newline. -/
def quotedBody : List Char → Nat
  | [] => 0
  | '"' :: _ => 0
  | '\\' :: '\n' :: _ => 0
  | '\\' :: _ :: rest => quotedBody rest + 2
  | ['\\'] => 0
  | _ :: rest => quotedBody rest + 1

/-- The length of a fraction, or zero if there is none. -/
def fractionLength : List Char → Nat
  | '.' :: rest => if run Char.isDigit rest = 0 then 0 else run Char.isDigit rest + 1
  | _ => 0

/-- The length of a sign, or zero if there is none. -/
def signLength : List Char → Nat
  | '+' :: _ => 1
  | '-' :: _ => 1
  | _ => 0

/-- The length of an exponent, or zero if there is none. -/
def exponentLength : List Char → Nat
  | [] => 0
  | mark :: rest =>
      let sign := signLength rest
      let digits := run Char.isDigit (rest.drop sign)
      if (mark == 'e' || mark == 'E') && digits != 0 then digits + sign + 1 else 0

/-- The length of a number without its sign. -/
def unsignedLength (text : List Char) : Option Nat :=
  let whole := run Char.isDigit text
  if whole = 0 then none
  else
    let fraction := fractionLength (text.drop whole)
    some (whole + fraction + exponentLength (text.drop (whole + fraction)))

/-! ### Matching -/

/-- The length of a run that must not be empty. -/
def runLength? (p : Char → Bool) (text : List Char) : Option Nat :=
  if run p text = 0 then none else some (run p text)

/-- The length of a body between an opening and a closing mark. -/
def enclosedLength? (opening : List Char) (body : List Char → Nat) (closing : List Char)
    (text : List Char) : Option Nat :=
  if opening.isPrefixOf text then
    let extent := opening.length + body (text.drop opening.length)
    if closing.isPrefixOf (text.drop extent) then some (extent + closing.length) else none
  else none

/-- The length of a given text at the front. -/
def fixedLength? (fixed text : List Char) : Option Nat :=
  if fixed.isPrefixOf text then some fixed.length else none

/-- The length of the longest chunk of a kind at the front. -/
def Kind.length? (kind : Kind) (text : List Char) : Option Nat :=
  match kind with
  | blanks => runLength? isBlank text
  | lineComment => enclosedLength? ['/', '/'] (run (· != '\n')) [] text
  | blockComment => enclosedLength? ['/', '*'] blockBody ['*', '/'] text
  | braceOpen => fixedLength? ['{'] text
  | braceClose => fixedLength? ['}'] text
  | bracketOpen => fixedLength? ['['] text
  | bracketClose => fixedLength? [']'] text
  | colon => fixedLength? [':'] text
  | comma => fixedLength? [','] text
  | doubleQuoted => enclosedLength? ['"'] quotedBody ['"'] text
  | singleQuoted => enclosedLength? ['\x27'] (run isPlain) ['\x27'] text
  | hex =>
      match text with
      | '0' :: mark :: rest =>
          if mark == 'x' || mark == 'X' then (runLength? isHexDigit rest).map (· + 2) else none
      | _ => none
  | number =>
      match text with
      | '-' :: rest => (unsignedLength rest).map (· + 1)
      | _ => unsignedLength text
  | word =>
      match text with
      | first :: rest => if isWordStart first then some (run isWordRest rest + 1) else none
      | [] => none

/-- The longer of two matches; the first of two equally long ones. -/
def longer : Option (Kind × Nat) → Option (Kind × Nat) → Option (Kind × Nat)
  | none, second => second
  | first, none => first
  | some first, some second => if first.2 < second.2 then some second else some first

/-- The longest chunk at the front. -/
def longest? (text : List Char) : Option (Kind × Nat) :=
  Kind.all.foldl (fun best kind => longer best ((kind.length? text).map (kind, ·))) none

/-- What is shown of a text that no chunk begins: an unfinished comment or quoted text, or else
one character. -/
def unmatchedLength (text : List Char) : Nat :=
  match text with
  | '/' :: '*' :: rest => blockBody rest + 2
  | '"' :: rest => quotedBody rest + 1
  | '\x27' :: rest => run isPlain rest + 1
  | _ => 1

/-! ### Scanning -/

/-- A piece of the text with its kind. -/
structure Chunk where
  kind : Kind
  text : List Char
deriving DecidableEq, Repr

/-- The chunks of a text, and the rest at which nothing matches. -/
structure Scan where
  chunks : List Chunk
  rest : List Char
deriving DecidableEq, Repr

/-- Scans a text, passing over as many characters as belong to a chunk already cut. -/
def scanFrom : Nat → List Char → Scan
  | _, [] => ⟨[], []⟩
  | passing + 1, _ :: text => scanFrom passing text
  | 0, first :: text =>
      match longest? (first :: text) with
      | none => ⟨[], first :: text⟩
      | some (kind, length) =>
          let after := scanFrom (length - 1) text
          ⟨⟨kind, (first :: text).take length⟩ :: after.chunks, after.rest⟩

def scan (text : List Char) : Scan := scanFrom 0 text

end ControlStore.Relaxed
