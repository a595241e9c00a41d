import ControlStore.Relaxed.Scan

set_option autoImplicit false

/-!
What the kinds of chunks may be spelled like, said without scanning. A kind is a set of texts; how
long a chunk is at some place of a text is a question about the prefixes found there.
-/
namespace ControlStore.Relaxed

/-- The inside of a block comment: characters other than a star, and stars each taken together
with the character after it, which is no slash. -/
inductive BlockBody : List Char → Prop where
  | nil : BlockBody []
  | plain {c : Char} {body : List Char} : c ≠ '*' → BlockBody body → BlockBody (c :: body)
  | star {c : Char} {body : List Char} : c ≠ '/' → BlockBody body → BlockBody ('*' :: c :: body)

/-- The inside of a double-quoted text: characters other than a quote and a backslash, and
backslashes each taken together with the character after it, which is no newline. -/
inductive QuotedBody : List Char → Prop where
  | nil : QuotedBody []
  | plain {c : Char} {body : List Char} :
      c ≠ '"' → c ≠ '\\' → QuotedBody body → QuotedBody (c :: body)
  | escape {c : Char} {body : List Char} :
      c ≠ '\n' → QuotedBody body → QuotedBody ('\\' :: c :: body)

/-- At least one character, all of a class. -/
def Run (p : Char → Bool) (text : List Char) : Prop := text ≠ [] ∧ ∀ c ∈ text, p c = true

/-- Nothing, or a point and digits. -/
inductive Fraction : List Char → Prop where
  | absent : Fraction []
  | present {digits : List Char} : Run Char.isDigit digits → Fraction ('.' :: digits)

/-- Nothing, or a mark, a sign if there is one, and digits. -/
inductive Exponent : List Char → Prop where
  | absent : Exponent []
  | present {mark : Char} {sign digits : List Char} : mark = 'e' ∨ mark = 'E' →
      sign ∈ [[], ['+'], ['-']] → Run Char.isDigit digits → Exponent (mark :: (sign ++ digits))

/-- The texts of a kind. -/
def Kind.Spells : Kind → List Char → Prop
  | blanks, text => Run isBlank text
  | lineComment, text => ∃ body, text = '/' :: '/' :: body ∧ ∀ c ∈ body, c ≠ '\n'
  | blockComment, text => ∃ body, text = '/' :: '*' :: (body ++ ['*', '/']) ∧ BlockBody body
  | braceOpen, text => text = ['{']
  | braceClose, text => text = ['}']
  | bracketOpen, text => text = ['[']
  | bracketClose, text => text = [']']
  | colon, text => text = [':']
  | comma, text => text = [',']
  | doubleQuoted, text => ∃ body, text = '"' :: (body ++ ['"']) ∧ QuotedBody body
  | singleQuoted, text =>
      ∃ body, text = '\x27' :: (body ++ ['\x27']) ∧ ∀ c ∈ body, isPlain c = true
  | hex, text => ∃ mark digits, text = '0' :: mark :: digits ∧ (mark = 'x' ∨ mark = 'X') ∧
      Run isHexDigit digits
  | number, text => ∃ sign whole fraction exponent,
      text = sign ++ (whole ++ (fraction ++ exponent)) ∧ sign ∈ [[], ['-']] ∧
        Run Char.isDigit whole ∧ Fraction fraction ∧ Exponent exponent
  | word, text => ∃ first rest, text = first :: rest ∧ isWordStart first = true ∧
      ∀ c ∈ rest, isWordRest c = true

end ControlStore.Relaxed
