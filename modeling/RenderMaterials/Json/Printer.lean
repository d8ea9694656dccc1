import RenderMaterials.Json.Value
import RenderMaterials.Number.Shortest
import RenderMaterials.Text.Hex

/-!
# Printing JSON

The compact form has no blanks; the indented form puts every item and field on a line of its own,
two spaces deeper than its container, and leaves empty containers closed up.
-/

namespace RenderMaterials.Json

/-- Binary numbers are written positionally from `0.00001` to below `10¹⁶`. -/
def numberLayout : Decimal.Layout := ⟨-5, 15, "+"⟩

def numberText : JsonNumber → String
  | .integer n => toString n
  | .binary x  => numberLayout.writeNumber x

/-- A character inside a string. -/
def escapeChar (c : Char) : List Char :=
  if c = '"' then ['\\', '"']
  else if c = '\\' then ['\\', '\\']
  else if c = '\x08' then ['\\', 'b']
  else if c = '\t' then ['\\', 't']
  else if c = '\n' then ['\\', 'n']
  else if c = '\x0c' then ['\\', 'f']
  else if c = '\r' then ['\\', 'r']
  else if c < ' ' then '\\' :: 'u' :: Text.hexDigits 4 c.toNat
  else [c]

/-- A string in quotes. -/
def quote (s : String) : String := String.ofList ('"' :: s.toList.flatMap escapeChar ++ ['"'])

mutual

/-- The compact form. -/
def compact : Json → String
  | null          => "null"
  | bool b        => if b then "true" else "false"
  | number n      => numberText n
  | text s        => quote s
  | array items   => "[" ++ ",".intercalate (compactItems items) ++ "]"
  | object fields => "\x7b" ++ ",".intercalate (compactFields fields) ++ "\x7d"

def compactItems : List Json → List String
  | []      => []
  | v :: vs => compact v :: compactItems vs

def compactFields : List (String × Json) → List String
  | []           => []
  | (k, v) :: es => (quote k ++ ":" ++ compact v) :: compactFields es

end

/-- Two spaces for each level. -/
def indent (level : Nat) : String := String.ofList (List.replicate (2 * level) ' ')

/-- Lines between an opening and a closing mark. -/
def block (opening closing : String) (level : Nat) (lines : List String) : String :=
  if lines = [] then opening ++ closing
  else
    let inner := "\n" ++ indent (level + 1)
    opening ++ inner ++ ("," ++ inner).intercalate lines ++ "\n" ++ indent level ++ closing

mutual

/-- The indented form of a value inside `level` containers. -/
def prettyAt (level : Nat) : Json → String
  | array items   => block "[" "]" level (prettyItems (level + 1) items)
  | object fields => block "\x7b" "\x7d" level (prettyFields (level + 1) fields)
  | v             => compact v

def prettyItems (level : Nat) : List Json → List String
  | []      => []
  | v :: vs => prettyAt level v :: prettyItems level vs

def prettyFields (level : Nat) : List (String × Json) → List String
  | []           => []
  | (k, v) :: es => (quote k ++ ": " ++ prettyAt level v) :: prettyFields level es

end

/-- The indented form. -/
def pretty (v : Json) : String := prettyAt 0 v

end RenderMaterials.Json
