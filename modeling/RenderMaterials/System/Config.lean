import RenderMaterials.Document.Check
import RenderMaterials.Spelled

/-!
# Configuration

How strict loading is, where shaders are looked for, and whether edits of shaders are followed.
-/

namespace RenderMaterials

/-- What becomes of an id that is declared twice. -/
inductive DuplicatePolicy where
  /-- The first declaration counts. -/
  | warn
  /-- The load fails. -/
  | reject
  deriving DecidableEq, Repr

namespace DuplicatePolicy

/-- The name of a policy. -/
def name : DuplicatePolicy → String
  | warn   => "warn"
  | reject => "reject"

instance : Spelled DuplicatePolicy where
  all := [warn, reject]
  name := name
  complete a := by cases a <;> decide
  injective a b := by cases a <;> cases b <;> decide

end DuplicatePolicy

/-- The options of a system. -/
structure SystemConfig where
  /-- The directory that paths of shaders are seen from. -/
  shaderRoot   : String := "."
  duplicateIds : DuplicatePolicy := .warn
  /-- Whether entries with reported errors are left out instead of ending the load. -/
  skipInvalid  : Bool := false
  /-- The material that stands in for unknown ones. -/
  fallback?    : Option String := none
  /-- Whether edits of shaders make the system forget what it built from them. -/
  hotReload    : Bool := true
  /-- Whether a document is checked before it is read. -/
  validate     : Bool := true
  deriving DecidableEq, Repr

namespace SystemConfig

/-- Whether an error of an entry ends the load. -/
def endsLoad (c : SystemConfig) (e : MaterialError) : Bool := e.isFatal || !c.skipInvalid

/-- The errors of a document's checks that end the load: all of the document's form, and those of
entries and ids that the options do not pass over. -/
def checkErrors (c : SystemConfig) (d : Document) : List MaterialError :=
  if c.validate then
    let r := d.check
    r.errors.filter (fun e => e matches .schema .. || c.endsLoad e)
      ++ if c.duplicateIds = .reject then r.duplicates.map DuplicateId.toError else []
  else []

end SystemConfig

end RenderMaterials
