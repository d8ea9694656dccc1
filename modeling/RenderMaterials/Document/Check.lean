import RenderMaterials.Document.Basic
import RenderMaterials.Error
import RenderMaterials.Material.Parameter

/-!
# Checking documents

Checks that need no shader and no source: the form of the sections, the declarations of parameters,
and ids that are declared twice.  All ids of a document share one namespace, whatever declares them.
-/

namespace RenderMaterials

/-! ### Parameters -/

namespace Parameter

/-- The declared default, under either of its keys. -/
def declaredDefault? (v : Json) : Option Json := v.field? "default" <|> v.field? "defaultValue"

/-- Whether a declaration has a known type, and a default of that type if it has one. -/
def check (v : Json) : Except MaterialError ParameterType :=
  let name := (v.textField? "name").getD "<unnamed>"
  match v.textField? "type" with
  | none          => .error (.invalidParameter name "missing 'type'")
  | some typeName =>
    match Spelled.ofName? (α := ParameterType) typeName with
    | none      => .error (.unknownParameterType name typeName)
    | some type =>
      match declaredDefault? v with
      | none   => .ok type
      | some d =>
        if type.accepts d then .ok type
        else
          .error (.invalidParameter name
            s!"default {d.compact} does not match type {Spelled.name type}")

end Parameter

/-! ### Documents -/

/-- An id that is declared again, and the category of the later declaration. -/
structure DuplicateId where
  id       : String
  category : String
  deriving DecidableEq, Repr

namespace DuplicateId

/-- The error for an id that is declared again. -/
def toError (d : DuplicateId) : MaterialError := .duplicateId d.id d.category

end DuplicateId

namespace Document

/-- The missing and misshapen sections. -/
def schemaErrors (d : Document) : List MaterialError :=
  let required := ["materials", "renderPasses"].filterMap fun key =>
    match d.root.value? key with
    | none            => some s!"missing required section '{key}'"
    | some (.array _) => none
    | some _          => some s!"'{key}' must be an array"
  let objects := ["states", "shaders", "defines"].filterMap fun key =>
    match d.root.value? key with
    | none             => none
    | some (.object _) => none
    | some _           => some s!"'{key}' must be an object"
  let arrays := [includesKey].filterMap fun key =>
    match d.root.value? key with
    | none            => none
    | some (.array _) => none
    | some _          => some s!"'{key}' must be an array"
  (required ++ objects ++ arrays).map .schema

/-- The parameter declarations of a material: its own, then those of its passes. -/
def parameterDeclarations (material : Json) : List Json :=
  let own (v : Json) := (v.arrayField? "parameters").getD []
  own material ++ ((material.arrayField? "passes").getD []).flatMap own

/-- The errors of a value's checks. -/
def errorOf {α : Type} : Except MaterialError α → Option MaterialError
  | .ok _    => none
  | .error e => some e

/-- The parameter declarations that are refused. -/
def parameterErrors (d : Document) : List MaterialError :=
  (d.materials.flatMap parameterDeclarations).filterMap (fun v => errorOf (Parameter.check v))

/-- The ids of a category, in the keyed form or as an array of entries with ids. -/
def declaredIds : Json → List String
  | .object es    => Table.keys es
  | .array items  => items.filterMap (·.textField? "id")
  | _             => []

/-- The ids of the categories of a section. -/
def sectionIds (label : String) (categories : Option JsonObject) : List DuplicateId :=
  (categories.getD []).flatMap fun c =>
    (declaredIds c.2).map fun id => ⟨id, s!"{label}.{c.1}"⟩

/-- Every declared id with its category, in order. -/
def declarations (d : Document) : List DuplicateId :=
  d.materials.filterMap (fun m => (m.textField? "id").map (⟨·, "materials"⟩))
    ++ d.renderPasses.filterMap (fun p => (p.textField? "name").map (⟨·, "renderPasses"⟩))
    ++ sectionIds "states" d.states?
    ++ sectionIds "shaders" d.shaders?

/-- The declarations whose id was seen before. -/
def repeated (seen : List String) : List DuplicateId → List DuplicateId
  | []      => []
  | e :: es => if seen.contains e.id then e :: repeated seen es else repeated (e.id :: seen) es

/-- The declarations of an id after its first. -/
def duplicates (d : Document) : List DuplicateId := repeated [] d.declarations

/-- What the checks of a document found. -/
structure Report where
  errors     : List MaterialError
  duplicates : List DuplicateId
  deriving DecidableEq, Repr

/-- Whether nothing was found. -/
def Report.isClean (r : Report) : Bool := r.errors = [] && r.duplicates = []

/-- Runs every check. -/
def check (d : Document) : Report := ⟨d.schemaErrors ++ d.parameterErrors, d.duplicates⟩

end Document

end RenderMaterials
