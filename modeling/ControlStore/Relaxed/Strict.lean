import ControlStore.Json.Text
import ControlStore.Relaxed.Scan

set_option autoImplicit false

/-!
Relaxed text as strict JSON. Tokens are the chunks that are no gaps. Each is written in its strict
form behind the newlines of the gap before it, or one blank, so it stays on its line.
-/
namespace ControlStore.Relaxed

-- Powers and sums are those of the core library, whatever else is imported beside this module.
attribute [local instance (2000)] instPowNat Zero.ofOfNat0

/-- A place that relaxed text does not allow: its line, counted from one, and what stands there. -/
structure SyntaxFault where
  line : Nat
  found : String
deriving DecidableEq, Repr

/-- The text shown for a fault. -/
def SyntaxFault.message (fault : SyntaxFault) : String :=
  s!"syntax error on line {fault.line}: unexpected `{fault.found}`"

def newlines (text : List Char) : Nat := text.count '\n'

/-- A chunk that is no gap, with the newlines in the gap before it and the line it begins on. -/
structure Token where
  kind : Kind
  text : List Char
  gap : Nat
  line : Nat
deriving DecidableEq, Repr

/-- The tokens of chunks that begin on a line behind a gap with some newlines. -/
def tokensFrom (line gap : Nat) : List Chunk → List Token
  | [] => []
  | chunk :: rest =>
      let passed := newlines chunk.text
      if chunk.kind.isGap then tokensFrom (line + passed) (gap + passed) rest
      else ⟨chunk.kind, chunk.text, gap, line⟩ :: tokensFrom (line + passed) 0 rest

def tokens (chunks : List Chunk) : List Token := tokensFrom 1 0 chunks

def strictWords : List (List Char) := [['t', 'r', 'u', 'e'], ['f', 'a', 'l', 's', 'e'],
  ['n', 'u', 'l', 'l']]

/-- Whether a kind ends a list or a map. -/
def Kind.closes : Kind → Bool
  | braceClose | bracketClose => true
  | _ => false

/-- The decimal form of a hexadecimal token, if it fits 64 bits. -/
def hexImage? (text : List Char) : Option (List Char) :=
  (Hex.read? (text.drop 2)).bind fun value =>
    if value < 2 ^ (64 : Nat) then some (Nat.toDigits 10 value) else none

/-- The strict form of a token before a token of some kind, if the token may stand there. A comma
that ends a list or map has an empty form. -/
def image? (kind : Kind) (text : List Char) (next : Option Kind) : Option (List Char) :=
  match kind with
  | .comma => some (if next.any Kind.closes then [] else text)
  | .word =>
      if next = some .colon then some (Json.Text.write text)
      else if text ∈ strictWords then some text
      else none
  | .singleQuoted => some (Json.Text.write (text.drop 1).dropLast)
  | .hex => hexImage? text
  | _ => some text

/-- What stands before a token: its gap's newlines, or one blank. -/
def lead (gap : Nat) : List Char := if gap = 0 then [' '] else List.replicate gap '\n'

/-- The strict text of tokens. -/
def render : List Token → Except SyntaxFault (List Char)
  | [] => .ok []
  | token :: rest =>
      match image? token.kind token.text (rest.head?.map (·.kind)) with
      | some image => (lead token.gap ++ image ++ ·) <$> render rest
      | none => .error ⟨token.line, String.ofList token.text⟩

/-- The strict JSON of a relaxed text. A place that cannot be scanned is reported before any
token that is not allowed. -/
def toJson (text : List Char) : Except SyntaxFault (List Char) :=
  let scanned := scan text
  if scanned.rest = [] then render (tokens scanned.chunks)
  else
    let line := 1 + (scanned.chunks.map fun chunk => newlines chunk.text).sum
    .error ⟨line, String.ofList (scanned.rest.take (unmatchedLength scanned.rest))⟩

end ControlStore.Relaxed
