import ControlStore.Json.Lexeme

set_option autoImplicit false

/-!
How JSON text is put together, said without scanning: lexemes as they are spelled, with blanks
before, between and behind them.
-/
namespace ControlStore.Json

/-- How a lexeme is spelled. What is no lexeme of JSON has no spelling. -/
def Lexeme.spelling : Lexeme → List Char
  | openMap => ['{']
  | closeMap => ['}']
  | openList => ['[']
  | closeList => [']']
  | colon => [':']
  | comma => [',']
  | text quoted => '"' :: (quoted.body ++ ['"'])
  | number spelling => spelling
  | null => ['n', 'u', 'l', 'l']
  | flag true => ['t', 'r', 'u', 'e']
  | flag false => ['f', 'a', 'l', 's', 'e']
  | misspelt | stray => []

/-- Spellings in their order, with blanks before, between and behind them. -/
inductive Spaced : List (List Char) → List Char → Prop where
  | done {blanks : List Char} : (∀ c ∈ blanks, Lexeme.isBlank c = true) → Spaced [] blanks
  | more {blanks spelling rest : List Char} {behind : List (List Char)} :
      (∀ c ∈ blanks, Lexeme.isBlank c = true) → Spaced behind rest →
        Spaced (spelling :: behind) (blanks ++ (spelling ++ rest))

end ControlStore.Json
