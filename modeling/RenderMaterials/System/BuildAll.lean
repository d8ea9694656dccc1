import RenderMaterials.System.Basic

/-!
# Building everything

One request for each pass of each material, in the order of the documents.  A pass is built for the
render pass of its name, or else for the first one; a request that fails does not keep the later
ones from being made.
-/

namespace RenderMaterials

/-- A request for the pipeline of a pass. -/
structure PassRequest where
  handle     : MaterialHandle
  material   : String
  pass?      : Option String
  renderPass : String
  deriving DecidableEq, Repr

namespace PassRequest

/-- The name of the pass in messages. -/
def passLabel (r : PassRequest) : String := r.pass?.getD Pass.defaultLabel

end PassRequest

/-- A request with what came of it. -/
structure PassResult where
  request : PassRequest
  result  : Except MaterialError CompiledPipeline

namespace PassResult

/-- Whether there is no pipeline. -/
def isFailure (r : PassResult) : Bool := !r.result.isOk

/-- How many requests have no pipeline. -/
def failures (rs : List PassResult) : Nat := rs.countP isFailure

end PassResult

namespace Catalog

/-- The render pass that a pass is built for: its own, or else the given one. -/
def renderPassFor (c : Catalog) (other : RenderPass) (p : Pass) : String :=
  (p.name?.filter fun n => (c.renderPass? n).isSome).getD other.name

/-- The requests for all passes; without render passes there are none. -/
def passRequests (c : Catalog) : List PassRequest :=
  match c.renderPasses with
  | []     => []
  | r :: _ => c.materials.zipIdx.flatMap fun (m, i) =>
    m.passes.map fun p => ⟨⟨i⟩, m.id, p.name?, c.renderPassFor r p⟩

end Catalog

namespace MaterialSystem

variable {σ : Type}

/-- Makes requests one after the other. -/
def buildEach (src : Source) :
    MaterialSystem σ → List PassRequest → List PassResult × MaterialSystem σ
  | s, []      => ([], s)
  | s, r :: rs =>
    let (result, s)  := s.pipelineFor src r.handle r.pass? r.renderPass
    let (results, s) := buildEach src s rs
    (⟨r, result⟩ :: results, s)

/-- Makes the requests for all passes. -/
def buildAll (s : MaterialSystem σ) (src : Source) : List PassResult × MaterialSystem σ :=
  buildEach src s s.catalog.passRequests

end MaterialSystem

end RenderMaterials
