import RenderMaterials.Text.Split

/-!
# Lines

A line ends at a line feed; one carriage return before it belongs to the end.  What follows the last
line feed is a line of its own, just as it stands, unless it is empty.
-/

namespace RenderMaterials.Text

/-- A line without the carriage return at its end. -/
def withoutReturn (l : List Char) : List Char :=
  if l.getLast? = some '\r' then l.dropLast else l

/-- The lines of the pieces between line feeds. -/
def linesOfPieces : List (List Char) → List (List Char)
  | []          => []
  | [last]      => if last = [] then [] else [last]
  | p :: q :: r => withoutReturn p :: linesOfPieces (q :: r)

/-- The lines of a text. -/
def lines (s : String) : List String :=
  (linesOfPieces (splitBy (· = '\n') s.toList)).map String.ofList

/-- Lines as a text, each ended by a line feed. -/
def unlines (ls : List String) : String := String.join (ls.map (· ++ "\n"))

end RenderMaterials.Text
