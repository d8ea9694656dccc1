import RenderMaterials.Shader.Fault
import RenderMaterials.Source.Basic
import RenderMaterials.Source.Path
import RenderMaterials.Text.Blank
import RenderMaterials.Text.Lines

/-!
# Shader includes

A line `#include "path"` stands for the lines of another file, the first time that the file is
named; later lines that name it stand for nothing.  Paths are seen from the directory of the file
that holds the line, and an empty line marks the end of what was put in.
-/

namespace RenderMaterials.Include

/-- The text between the quotes of a quoted text. -/
def unquoted? : List Char → Option (List Char)
  | '"' :: r => if r.getLast? = some '"' then some r.dropLast else none
  | _        => none

/-- The path of an include line; blanks around the word and the path do not count. -/
def target? (line : String) : Option String := do
  let rest ← Text.after? "#include".toList (Text.trimChars line.toList)
  (unquoted? (Text.trimChars rest)).map String.ofList

/-- A text under assembly: its lines so far, and the files that were put into it. -/
structure Assembly where
  lines : List String := []
  files : List String
  deriving DecidableEq, Repr

namespace Assembly

/-- Adds a line. -/
def push (a : Assembly) (line : String) : Assembly := { a with lines := a.lines ++ [line] }

/-- Adds a file, whose lines are to come. -/
def enter (a : Assembly) (file : String) : Assembly := { a with files := a.files ++ [file] }

end Assembly

/-- Adds a line of a file.  `put` adds the text of a file that the line names. -/
def addLine (src : Source) (put : (file text : String) → Assembly → Except CompileFault Assembly)
    (file : String) (a : Assembly) (line : String) : Except CompileFault Assembly :=
  match target? line with
  | none        => .ok (a.push line)
  | some target => do
    let path ← (Path.resolveInclude file target).mapError .inaccessible
    if a.files.contains path then return a
    let text ← (src.readText path).mapError (.badInclude path file)
    return (← put path text (a.enter path)).push ""

/-- Adds the lines of a file's text.  `more` is how many files can still be entered. -/
def expandInto (src : Source) : (more : Nat) → (file text : String) → Assembly →
    Except CompileFault Assembly
  | 0, file, text, a =>
    let full (path _ : String) (_ : Assembly) := .error (.badInclude path file (.fileNotFound path))
    (Text.lines text).foldlM (addLine src full file) a
  | more + 1, file, text, a =>
    (Text.lines text).foldlM (addLine src (expandInto src more) file) a

/-- The lines of a file's text with all its includes put in. -/
def expand (src : Source) (file text : String) : Except CompileFault (List String) :=
  (expandInto src src.size file text { files := [file] }).map Assembly.lines

end RenderMaterials.Include
