import RenderMaterials.Text.Hidden
import RenderMaterials.Text.Hex

/-!
# Quoted texts

A text between double quotes in which every character can be told: quotes and backslashes have a
backslash in front, the usual controls a letter behind one, and other hidden characters are written
by number.
-/

namespace RenderMaterials.Text

/-- A number in lower-case hexadecimal, without leading zeros. -/
def hexNumber (n : Nat) : List Char := Nat.toDigits 16 n

/-- How a quoted text spells a character. -/
def spellQuoted (c : Char) : List Char :=
  match c with
  | '"'    => ['\\', '"']
  | '\\'   => ['\\', '\\']
  | '\n'   => ['\\', 'n']
  | '\r'   => ['\\', 'r']
  | '\t'   => ['\\', 't']
  | '\x00' => ['\\', '0']
  | c      =>
    if isHidden c then ['\\', 'u', '\x7b'] ++ hexNumber c.toNat ++ ['\x7d'] else [c]

/-- A text in quotes. -/
def quoted (s : String) : String := String.ofList ('"' :: s.toList.flatMap spellQuoted ++ ['"'])

end RenderMaterials.Text
