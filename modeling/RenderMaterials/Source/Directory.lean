import RenderMaterials.Source.Basic
import RenderMaterials.Source.Disk

/-!
# Sources in a directory

The files below one directory of a tree.  A source path is made canonical before it is put after the
root: then it is not absolute and takes no step back, so it cannot lead out of the root.
-/

namespace RenderMaterials

/-- The files below a root directory. -/
structure DirectorySource where
  root : String
  deriving DecidableEq, Repr

namespace DirectorySource

/-- A path as it is seen from a directory: put after it, unless the path is absolute. -/
def below (directory path : String) : String :=
  if path.toList.head? = some '/' then path
  else if directory.isEmpty || directory.toList.getLast? = some '/' then directory ++ path
  else s!"{directory}/{path}"

/-- The local path of a source path. -/
def resolve (s : DirectorySource) (path : String) : Except MaterialError String :=
  return below s.root (← Path.normalize path)

/-- The names of a local path, with `.` kept when the path starts with it. -/
def components (path : String) : Location :=
  let ns := Disk.names path
  if (Text.pieces (· = '/') path).head? = some "." then "." :: ns else ns

/-- The source path of a local path below the root. -/
def toSourcePath (s : DirectorySource) (path : String) : Option String := do
  let rest ← Text.after? (components s.root) (components path)
  (Path.normalize ("/".intercalate rest)).toOption

/-- The contents of a file in a tree. -/
def read (s : DirectorySource) (d : Disk) (path : String) : Except MaterialError Bytes := do
  let full ← s.resolve path
  (d.read full).mapError (DiskFault.toError full)

/-- Whether a file is there in a tree. -/
def contains (s : DirectorySource) (d : Disk) (path : String) : Bool :=
  match s.resolve path with
  | .ok full => d.isFile full
  | .error _ => false

/-- The local path of a source path, or the path itself when it has no canonical form. -/
def describe (s : DirectorySource) (path : String) : String :=
  match s.resolve path with
  | .ok full => full
  | .error _ => path

/-- The files of a tree below the root, as a source. -/
def toSource (s : DirectorySource) (d : Disk) : Source :=
  { read := s.read d, contains := s.contains d, describe := s.describe, size := d.files.length }

end DirectorySource

end RenderMaterials
