import ControlStore.Hex
import ControlStore.Json.Fault

set_option autoImplicit false

/-!
Quoted texts of JSON. `write` puts any text in quotes with the escapes it needs. A quoted text is
read in two steps: its body is cut into pieces, each a character or an escaped code unit, and the
pieces are joined, surrogates by pairs.
-/
namespace ControlStore.Json

-- Sums are those of the core library, whatever else is imported beside this module.
attribute [local instance (2000)] Zero.ofOfNat0

/-- The body of a quoted text as it is spelled, and the number of bytes, counted up to four
characters, from its closing quote to the end of the whole text. No room means no closing quote. -/
structure Text where
  body : List Char
  room : Nat
deriving DecidableEq, Repr

namespace Text

/-! ### Writing -/

/-- The spelling of a character in quotes. -/
def escape (c : Char) : List Char :=
  if c = '"' then ['\\', '"']
  else if c = '\\' then ['\\', '\\']
  else if c = '\x08' then ['\\', 'b']
  else if c = '\t' then ['\\', 't']
  else if c = '\n' then ['\\', 'n']
  else if c = '\x0c' then ['\\', 'f']
  else if c = '\r' then ['\\', 'r']
  else if c.toNat < 32 then ['\\', 'u'] ++ (Hex.fixed 4 c.toNat).map Char.toLower
  else [c]

def spell (text : List Char) : List Char := text.flatMap escape

def write (text : List Char) : List Char := '"' :: (spell text ++ ['"'])

/-! ### Reading -/

/-- The length of the body that begins a text: everything before the closing quote. -/
def bodyLength : List Char → Nat
  | [] => 0
  | '"' :: _ => 0
  | '\\' :: _ :: rest => bodyLength rest + 2
  | _ :: rest => bodyLength rest + 1

/-- A part of a body. -/
inductive Piece where
  /-- A character, spelled plainly or by a short escape. -/
  | char (c : Char)
  /-- A code unit, spelled by four hexadecimal digits. -/
  | unit (code : Nat)
  /-- The body cannot be cut further; `inUnit` tells whether digits of a code unit are missing. -/
  | stop (fault : Fault) (inUnit : Bool)
deriving DecidableEq, Repr

/-- The character of a short escape. -/
def shortEscape? : Char → Option Char
  | '"' => some '"'
  | '\\' => some '\\'
  | '/' => some '/'
  | 'b' => some '\x08'
  | 'f' => some '\x0c'
  | 'n' => some '\n'
  | 'r' => some '\r'
  | 't' => some '\t'
  | _ => none

/-- The fault of digits that are no code unit: the whole text ends, or they are no digits. -/
def unitFault (room : Nat) (rest : List Char) : Fault :=
  if ((rest.take 4).map Char.utf8Size).sum + room < 4 then .unfinishedText else .badEscape

/-- Cuts a body into pieces. -/
def pieces (room : Nat) : List Char → List Piece
  | [] => []
  | '\\' :: 'u' :: a :: b :: c :: d :: rest =>
      match Hex.read? [a, b, c, d] with
      | some code => .unit code :: pieces room rest
      | none => [.stop (unitFault room [a, b, c, d]) true]
  | '\\' :: 'u' :: rest => [.stop (unitFault room rest) true]
  | '\\' :: c :: rest =>
      match shortEscape? c with
      | some meant => .char meant :: pieces room rest
      | none => [.stop .badEscape false]
  | ['\\'] => [.stop .unfinishedText true]
  | c :: rest =>
      if c.toNat < 32 then [.stop .controlCharacter false] else .char c :: pieces room rest

/-- Whether a code unit is the first half of a pair. -/
def isLeading (code : Nat) : Bool := 0xD800 ≤ code && code ≤ 0xDBFF

def isTrailing (code : Nat) : Bool := 0xDC00 ≤ code && code ≤ 0xDFFF

/-- The character of a pair of code units. -/
def pairChar (leading trailing : Nat) : Char :=
  Char.ofNat (0x10000 + (leading - 0xD800) * 0x400 + (trailing - 0xDC00))

/-- The characters of pieces; surrogates must come in pairs. -/
def join : List Piece → Except Fault (List Char)
  | [] => .ok []
  | .char c :: rest => (c :: ·) <$> join rest
  | .stop fault _ :: _ => .error fault
  | .unit code :: .unit next :: rest =>
      if isTrailing code then .error .loneSurrogate
      else if isLeading code then
        if isTrailing next then (pairChar code next :: ·) <$> join rest
        else .error .loneSurrogate
      else (Char.ofNat code :: ·) <$> join (.unit next :: rest)
  | .unit code :: rest =>
      if isTrailing code then .error .loneSurrogate
      else if isLeading code then
        match rest with
        | .stop fault true :: _ => .error fault
        | _ => .error .openSurrogate
      else (Char.ofNat code :: ·) <$> join rest

/-- The first fault that shows without pairing surrogates. -/
def stop? : List Piece → Option Fault
  | [] => none
  | .stop fault _ :: _ => some fault
  | _ :: rest => stop? rest

def read (text : Text) : Except Fault String := do
  let chars ← join (pieces text.room text.body)
  if text.room = 0 then throw .unfinishedText
  return String.ofList chars

/-- The first fault of a text that is passed over: its form is checked and its meaning is not. -/
def skip (text : Text) : Option Fault :=
  (stop? (pieces text.room text.body)).or (if text.room = 0 then some .unfinishedText else none)

end Text

end ControlStore.Json
