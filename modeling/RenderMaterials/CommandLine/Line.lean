import RenderMaterials.System.BuildAll
import RenderMaterials.Document.Check

/-!
# Output lines

What the program says about a root file, as data, with the wording in `Line.text`.
-/

namespace RenderMaterials.CommandLine

/-- A line of output. -/
inductive Line where
  | plain (s : String)
  /-- A root file that cannot be loaded. -/
  | failedToLoad (root : String)
  /-- A root file whose document is refused. -/
  | invalid (root : String)
  /-- An error that ended a load. -/
  | fault (e : MaterialError)
  /-- An error of a document's checks. -/
  | checkError (e : MaterialError)
  | duplicate (d : DuplicateId)
  | loaded (root : String) (files materials renderPasses states : Nat)
  | building (root backend : String)
  | pass (r : PassResult)
  | pipelines (cached hits misses refreshes : Nat)
  | reflections (entries hits misses layouts : Nat)
  | reloading
  | rebuilding (materials : Nat)

namespace Line

/-- How a load's errors are introduced. -/
def severityName : Severity → String
  | .fatal    => "fatal"
  | .reported => "error"

/-- A request with its key and the number of its bindings, or with its error. -/
def passText (r : PassResult) : String :=
  let q := r.request
  let outcome := match r.result with
    | .ok p    => s!"{p.hash.display} ({p.spec.bindings.length} binding(s))"
    | .error e => e.message
  s!"  {q.material}/{q.passLabel} @ {q.renderPass}: {outcome}"

/-- The wording of a line. -/
def text : Line → String
  | plain s                             => s
  | failedToLoad root                   => s!"{root}: failed to load"
  | invalid root                        => s!"{root}: invalid"
  | fault e                             => s!"  {severityName e.severity}: {e.message}"
  | checkError e                        => s!"  error: {e.message}"
  | duplicate d                         => s!"  warning: duplicate id '{d.id}' in {d.category}"
  | loaded root files ms rs states      =>
    s!"{root}: {files} file(s), {ms} material(s), {rs} render pass(es), {states} state block(s)"
  | building root backend               => s!"{root}: building with backend '{backend}'"
  | pass r                              => passText r
  | pipelines cached hits misses again  =>
    s!"pipelines: {cached} cached, {hits} hit(s), {misses} miss(es), {again} refresh(es)"
  | reflections entries hits misses ls  =>
    s!"reflection: {entries} entr(ies), {hits} hit(s), {misses} miss(es); layouts: {ls}"
  | reloading                           => "documents changed, reloading"
  | rebuilding n                        => s!"{n} material(s) affected, rebuilding"

/-- The errors of a load. -/
def ofFailure (f : LoadFailure) : List Line := f.errors.map fault

/-- What the checks of a document found. -/
def ofReport (r : Document.Report) : List Line :=
  r.errors.map checkError ++ r.duplicates.map duplicate

/-- What was loaded from a root file. -/
def ofCatalog (root : String) (c : Catalog) : Line :=
  loaded root c.files.length c.materials.length c.renderPasses.length c.states.size

/-- The counters of a system. -/
def ofCounters {σ : Type} (s : MaterialSystem σ) : List Line :=
  let p := s.pipelines
  let r := s.workshop.reflections
  [pipelines p.entries.length p.hits p.misses p.refreshes,
    reflections r.entries.length r.hits r.misses s.workshop.layouts.entries.length]

end Line

end RenderMaterials.CommandLine
