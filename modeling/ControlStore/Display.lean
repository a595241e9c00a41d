import ControlStore.Display.Hidden
import ControlStore.Hex

set_option autoImplicit false

/-!
Texts as messages show them: in quotes, on one line, with every character visible.
-/
namespace ControlStore.Display

/-- The form of a character in a shown text: quotes, backslashes and a few controls have short
escapes, other hidden characters their code point in braces, and all else stands for itself. -/
def showChar (c : Char) : List Char :=
  if c = '"' then ['\\', '"']
  else if c = '\\' then ['\\', '\\']
  else if c = '\n' then ['\\', 'n']
  else if c = '\r' then ['\\', 'r']
  else if c = '\t' then ['\\', 't']
  else if c.toNat = 0 then ['\\', '0']
  else if isHidden c then
    ['\\', 'u', '{'] ++ (Hex.shortest c.toNat).map Char.toLower ++ ['}']
  else [c]

/-- A text in quotes, as messages show it. -/
def quoted (text : String) : String :=
  "\"" ++ String.ofList (text.toList.flatMap showChar) ++ "\""

end ControlStore.Display
