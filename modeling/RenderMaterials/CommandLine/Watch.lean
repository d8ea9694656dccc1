import RenderMaterials.CommandLine.Outcome
import RenderMaterials.Source.Directory

/-!
# Watching

A system that follows the files of a directory from one state of the tree to the next.  A change of
a document loads everything again; a change of a shader builds again what uses it.
-/

namespace RenderMaterials.CommandLine

/-- A system with the directory that it follows. -/
structure Watch where
  source : DirectorySource
  system : System

namespace Watch

/-- Loads a root file and builds all passes. -/
def start (tools : Toolchain Counts) (config : SystemConfig) (source : DirectorySource) (d : Disk)
    (root : String) : Except Outcome (List Line × Watch) :=
  let src := source.toSource d
  match loadSystem tools config src root with
  | .error f => .error (failedToLoad root f)
  | .ok s    =>
    let (results, s) := s.buildAll src
    .ok (results.map .pass, ⟨source, s⟩)

/-- The source paths of the files that are new or have new contents. -/
def changes (w : Watch) (old new : Disk) : List String :=
  (new.files.filter fun f => old.files.value? f.1 ≠ some f.2).filterMap fun f =>
    w.source.toSourcePath (new.absolute f.1)

/-- Builds all passes again. -/
def rebuild (w : Watch) (src : Source) : List Line × Watch :=
  let (results, s) := w.system.buildAll src
  (results.map .pass ++ Line.ofCounters s, { w with system := s })

/-- Forgets what was built from some files, and says how many materials use them. -/
def forget (s : System) (changed : List String) : Nat × System :=
  changed.foldl (fun (n, s) path =>
    let (users, s) := s.shaderChanged path
    (n + users, s)) (0, s)

/-- Loads the root file again and builds all passes; when it does not load, the old system stays. -/
def reload (w : Watch) (src : Source) : List Line × Watch :=
  match w.system.reload src with
  | (.ok _, s)    => { w with system := s }.rebuild src
  | (.error f, s) => (Line.ofFailure f ++ Line.ofCounters s, { w with system := s })

/-- Follows the changes of some files. -/
def follow (w : Watch) (d : Disk) (changed : List String) : List Line × Watch :=
  let src := w.source.toSource d
  if changed.any w.system.catalog.files.contains then
    let (lines, w) := w.reload src
    (.reloading :: lines, w)
  else
    let (affected, s) := forget w.system changed
    if affected = 0 then ([], { w with system := s })
    else
      let (lines, w) := { w with system := s }.rebuild src
      (.rebuilding affected :: lines, w)

end Watch

end RenderMaterials.CommandLine
