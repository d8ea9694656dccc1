import RenderMaterials.Document.Merge
import RenderMaterials.Json.Reader
import RenderMaterials.Source.Basic
import RenderMaterials.Source.Path

/-!
# Loading documents

A file may include others, by paths seen from its own directory.  They are loaded depth first and
merged before the file that includes them; a file that is reached again is not merged again, and one
that is reached while it is being loaded closes a cycle, which is an error.  The first error ends
the load.
-/

namespace RenderMaterials

namespace Document

/-- The object that a file holds. -/
def readObject (src : Source) (path : String) : Except MaterialError JsonObject := do
  let bytes ← src.read path
  match (Text.decodeUtf8 bytes).toOption.bind Json.read? with
  | none                  => throw (.json (src.describe path) "not well-formed")
  | some (.object fields) => return fields
  | some _                =>
    throw (.invalidDocument (src.describe path) "root must be a JSON object")

/-- The canonical path of an entry of a file's includes. -/
def includeTarget (src : Source) (path : String) (entry : Json) : Except MaterialError String :=
  match entry with
  | .text target => Path.resolveInclude path target
  | other        =>
    .error (.invalidDocument (src.describe path)
      s!"include entries must be strings, found {other.compact}")

/-- The canonical paths that a file includes. -/
def includeTargets (src : Source) (path : String) (content : JsonObject) :
    Except MaterialError (List String) :=
  match content.value? includesKey with
  | none                  => .ok []
  | some (.array entries) => entries.mapM (includeTarget src path)
  | some _                =>
    .error (.invalidDocument (src.describe path) "'includes' must be an array")

/-- What a file holds apart from its includes, and the files that it includes. -/
def readContent (src : Source) (path : String) :
    Except MaterialError (JsonObject × List String) := do
  let content ← readObject src path
  let targets ← includeTargets src path content
  return (JsonObject.swapRemove content includesKey, targets)

/-- Loads a file into a document.  `entered` holds the files that are being loaded, outermost first,
and `more` how many files can still be read in addition to them. -/
def loadInto (src : Source) : (more : Nat) → (entered : List String) → Document → String →
    Except MaterialError Document
  | more, entered, d, file => do
    let path ← Path.normalize file
    if entered.contains path then
      throw (.includeCycle (entered.dropWhile (· ≠ path) ++ [path]))
    if d.files.contains path then return d
    let (content, targets) ← readContent src path
    let d ← match more with
      | 0        => if targets = [] then pure d else throw (.fileNotFound path)
      | more + 1 => targets.foldlM (loadInto src more (entered ++ [path])) d
    return d.mergeFile path content

/-- Loads a root file with everything that it includes. -/
def load (src : Source) (root : String) : Except LoadFailure Document :=
  (loadInto src src.size [] {} root).mapError .single

end Document

end RenderMaterials
