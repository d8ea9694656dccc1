import RenderMaterials.Error
import RenderMaterials.Text.Split

/-!
# Source paths

A path names a file of a source by segments.  Both slashes separate; empty segments and `.` count
for nothing, and `..` takes back the segment before it.  The canonical form joins what is left with
single forward slashes, so two spellings of one file have one canonical form.
-/

namespace RenderMaterials.Path

/-- A piece of a path between separators. -/
abbrev Segment := List Char

/-- The two separators. -/
def isSeparator (c : Char) : Bool := c = '/' || c = '\\'

/-- The pieces of a path, whatever they are. -/
def segments (path : String) : List Segment := Text.splitBy isSeparator path.toList

/-- Adds a segment to those kept so far (innermost first); `none` when `..` has nothing to take
back. -/
def push : List Segment → Segment → Option (List Segment)
  | kept,      []         => some kept
  | kept,      ['.']      => some kept
  | [],        ['.', '.'] => none
  | _ :: kept, ['.', '.'] => some kept
  | kept,      s          => some (s :: kept)

/-- The segments that survive, outermost first; `none` when the path climbs above its start. -/
def surviving (ss : List Segment) : Option (List Segment) :=
  (ss.foldlM push []).map List.reverse

/-- Segments joined by forward slashes. -/
def render (ss : List Segment) : String := "/".intercalate (ss.map String.ofList)

/-- The canonical form of a path. -/
def normalize (path : String) : Except MaterialError String :=
  match surviving (segments path) with
  | none    => .error (.invalidPath path "escapes the source root")
  | some [] => .error (.invalidPath path "empty path")
  | some ss => .ok (render ss)

/-- The directory of a canonical path, empty at top level: all before the last forward slash. -/
def parent (path : String) : String :=
  render (Text.splitBy (· = '/') path.toList).dropLast

/-- The canonical form of a path seen from a directory; a leading `/` starts at the root. -/
def join (directory relative : String) : Except MaterialError String :=
  if relative.toList.head? = some '/' || directory.isEmpty then normalize relative
  else normalize s!"{directory}/{relative}"

/-- The file that an include written in `including` names. -/
def resolveInclude (including target : String) : Except MaterialError String :=
  join (parent including) target

end RenderMaterials.Path
