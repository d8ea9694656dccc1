import RenderMaterials.Source.Basic
import RenderMaterials.Source.Path
import RenderMaterials.Table

/-!
# Sources in memory

Files kept under their canonical paths.  A path without a canonical form is kept as it is written
and never found.
-/

namespace RenderMaterials

/-- Files by canonical path. -/
structure MemorySource where
  files : Table String Bytes := []
  deriving DecidableEq, Repr

namespace MemorySource

/-- Where a file is kept. -/
def place (path : String) : String :=
  match Path.normalize path with
  | .ok p    => p
  | .error _ => path

/-- Puts a file, over an earlier one of the same canonical path. -/
def insert (m : MemorySource) (path : String) (data : Bytes) : MemorySource :=
  ⟨m.files.assign (place path) data⟩

/-- Puts a file that holds a text. -/
def insertText (m : MemorySource) (path text : String) : MemorySource :=
  m.insert path (Text.encodeUtf8 text)

/-- Takes a file away, and gives what it held. -/
def remove (m : MemorySource) (path : String) : Option Bytes × MemorySource :=
  match Path.normalize path with
  | .error _ => (none, m)
  | .ok p    => (m.files.value? p, ⟨m.files.without p⟩)

/-- The number of files. -/
def size (m : MemorySource) : Nat := m.files.length

/-- The contents of a file. -/
def read (m : MemorySource) (path : String) : Except MaterialError Bytes := do
  let p ← Path.normalize path
  match m.files.value? p with
  | some data => return data
  | none      => throw (.fileNotFound p)

/-- Whether a file is there. -/
def contains (m : MemorySource) (path : String) : Bool :=
  match Path.normalize path with
  | .ok p    => m.files.has p
  | .error _ => false

/-- The files as a source. -/
def toSource (m : MemorySource) : Source :=
  { read := m.read, contains := m.contains, size := m.size }

/-- A source with the given files, put in turn. -/
def ofFiles (fs : List (String × Bytes)) : MemorySource :=
  fs.foldl (fun m f => m.insert f.1 f.2) {}

end MemorySource

end RenderMaterials
