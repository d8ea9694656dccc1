import RenderMaterials.Source.Path
import RenderMaterials.Text.Utf8
import RenderMaterials.Table

/-!
# Directory trees

The files and directories that a program can see, by location, and what opening one gives.  A
location is a list of names from the working directory, or from `/` when that is its first name.
-/

namespace RenderMaterials

/-- A list of names, outermost first. -/
abbrev Location := List String

/-- What a tree holds. -/
structure Disk where
  files       : Table Location Bytes := []
  directories : List Location := []
  /-- The absolute path of the working directory, empty when nothing names it by that. -/
  home        : String := ""

/-- Why a file cannot be opened. -/
inductive DiskFault where
  | missing
  | isDirectory
  | notDirectory
  | nameTooLong
  | holdsNul
  deriving DecidableEq, Repr

namespace DiskFault

/-- The system's wording. -/
def message : DiskFault → String
  | missing      => "No such file or directory (os error 2)"
  | isDirectory  => "Is a directory (os error 21)"
  | notDirectory => "Not a directory (os error 20)"
  | nameTooLong  => "File name too long (os error 36)"
  | holdsNul     => "file name contained an unexpected NUL byte"

/-- The error for a file that cannot be opened. -/
def toError (path : String) : DiskFault → MaterialError
  | missing => .fileNotFound path
  | fault   => .io path fault.message

end DiskFault

namespace Disk

/-- The names of a local path: the empty ones and `.` say nothing, a leading `/` is a name. -/
def names (path : String) : Location :=
  let ns := (Text.pieces (· = '/') path).filter (fun n => n ≠ "" && n ≠ ".")
  if path.toList.head? = some '/' then "/" :: ns else ns

/-- The location that a local path names, by its names alone. -/
def location (d : Disk) (path : String) : Location :=
  if d.home.isEmpty then names path
  else match Text.after? d.home.toList path.toList with
    | some []       => []
    | some ('/' :: r) => (names (String.ofList ('/' :: r))).drop 1
    | _             => names path

/-- The absolute path of a location. -/
def absolute (d : Disk) (l : Location) : String :=
  match l with
  | []        => d.home
  | "/" :: ns => "/" ++ "/".intercalate ns
  | ns        => s!"{d.home}/" ++ "/".intercalate ns

/-- Whether a location is a directory: the working directory, a recorded one, or one on the way to
something recorded. -/
def isDirectory (d : Disk) (l : Location) : Bool :=
  l = [] || l = ["/"] || (d.directories ++ d.files.keys.map List.dropLast).any l.isPrefixOf

/-- The location that a name leads to from another: `..` leads back, where there is something to
leave. -/
def enter (l : Location) (name : String) : Location :=
  if name = ".." && l ≠ [] && l.getLast? ≠ some ".." then if l = ["/"] then l else l.dropLast
  else l ++ [name]

/-- One step from a location to a name in it. -/
def step (d : Disk) (l : Location) (name : String) : Except DiskFault Location :=
  if d.isDirectory l then
    if (Text.encodeUtf8 name).length > 255 then .error .nameTooLong else .ok (enter l name)
  else if d.files.has l then .error .notDirectory
  else .error .missing

/-- The location that a local path leads to. -/
def locate (d : Disk) (path : String) : Except DiskFault Location :=
  if path.toList.contains '\x00' then .error .holdsNul
  else if (Text.encodeUtf8 path).length ≥ 4096 then .error .nameTooLong
  else if path.isEmpty then .error .missing
  else match d.location path with
    | "/" :: ns => ns.foldlM d.step ["/"]
    | ns        => ns.foldlM d.step []

/-- The contents of the file at a local path. -/
def read (d : Disk) (path : String) : Except DiskFault Bytes := do
  let l ← d.locate path
  match d.files.value? l with
  | some data => return data
  | none      => throw (if d.isDirectory l then .isDirectory else .missing)

/-- The absolute path of a file or a directory, free of steps back. -/
def canonical (d : Disk) (path : String) : Except DiskFault String := do
  let l ← d.locate path
  if d.isDirectory l || d.files.has l then return d.absolute l else throw .missing

/-- Whether there is a file at a local path. -/
def isFile (d : Disk) (path : String) : Bool :=
  match d.locate path with
  | .ok l    => d.files.has l
  | .error _ => false

end Disk

end RenderMaterials
