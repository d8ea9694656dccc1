import RenderMaterials.Layout.Spec
import RenderMaterials.Pipeline.Descriptor
import RenderMaterials.Pipeline.Key
import RenderMaterials.Table

/-!
# Pipeline cache

Finished pipelines by key.  Each remembers the material, pass and render pass that it was made for;
a key belongs to one of these origins at a time.
-/

namespace RenderMaterials

/-- A finished pipeline with its layout and its origin. -/
structure CompiledPipeline where
  hash       : PipelineHash
  pipeline   : GpuPipeline
  layout     : GpuLayout
  spec       : LayoutSpec
  material   : String
  pass?      : Option String
  renderPass : String
  deriving DecidableEq, Repr

namespace CompiledPipeline

/-- The name of the pass in messages. -/
def passLabel (p : CompiledPipeline) : String := p.pass?.getD Pass.defaultLabel

/-- Whether two pipelines were made for the same request. -/
def sameOrigin (p q : CompiledPipeline) : Bool :=
  p.material = q.material && p.pass? = q.pass? && p.renderPass = q.renderPass

end CompiledPipeline

/-- Pipelines by key. -/
structure PipelineCache where
  entries   : Table UInt64 CompiledPipeline := []
  hits      : Nat := 0
  misses    : Nat := 0
  refreshes : Nat := 0
  deriving DecidableEq, Repr

namespace PipelineCache

/-- The pipeline of a key. -/
def get (c : PipelineCache) (h : PipelineHash) : Option CompiledPipeline × PipelineCache :=
  match c.entries.value? h.value with
  | some p => (some p, { c with hits := c.hits + 1 })
  | none   => (none, { c with misses := c.misses + 1 })

/-- Puts a pipeline under its key, over an earlier one of the same origin. -/
def store (c : PipelineCache) (p : CompiledPipeline) :
    Except MaterialError CompiledPipeline × PipelineCache :=
  if !p.hash.isValid then (.error (.invalidPipelineHash p.material p.passLabel), c)
  else
    let stored := { c with entries := c.entries.assign p.hash.value p }
    match c.entries.value? p.hash.value with
    | none          => (.ok p, stored)
    | some existing =>
      if existing.sameOrigin p then (.ok p, { stored with refreshes := c.refreshes + 1 })
      else
        (.error (.hashCollision p.hash.value existing.material existing.passLabel p.material
          p.passLabel), c)

/-- Drops the pipelines of a material, and says how many there were. -/
def invalidate (c : PipelineCache) (material : String) : Nat × PipelineCache :=
  let kept := c.entries.filter (fun e => e.2.material ≠ material)
  (c.entries.length - kept.length, { c with entries := kept })

/-- Drops the entries and keeps the counters. -/
def clear (c : PipelineCache) : PipelineCache := { c with entries := [] }

end PipelineCache

end RenderMaterials
