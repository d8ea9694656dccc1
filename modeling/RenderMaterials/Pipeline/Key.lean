import RenderMaterials.Hash.Key
import RenderMaterials.Material.Basic
import RenderMaterials.Text.Hex

/-!
# Pipeline keys

The key under which the pipeline of a request is kept.  Zero stands for no pipeline.

* `ofPass_isValid`: every pass has a pipeline.
* `ofRequest_eq_invalid_iff`: a request has none exactly when it selects no pass.
-/

namespace RenderMaterials

/-- The key of a pipeline. -/
structure PipelineHash where
  value : UInt64
  deriving DecidableEq, Repr

namespace PipelineHash

/-- The key of requests that select no pass. -/
def invalid : PipelineHash := ⟨0⟩

def isValid (h : PipelineHash) : Bool := h ≠ invalid

/-- A key as texts show it. -/
def display (h : PipelineHash) : String := Text.hexWord h.value

/-- The key of a pass of a material in a render pass: the material's id, the pass's name if it has
one, the render pass, stage and id of each shader, and the names of three of the state blocks. -/
def ofPass (material : String) (p : Pass) (renderPass : String) : PipelineHash :=
  let k : Key := ({} : Key).text material
  let k := (p.name?.map k.text).getD k
  let k := k.text renderPass
  let k := p.shaders.foldl (fun k s => (k.word (.ofNat s.stage.tag)).text s.id) k
  let k := k.optionalText p.states.rasterizer
  let k := k.optionalText p.states.depthStencil
  let k := k.optionalText p.states.blend
  ⟨if k.finish = 0 then 1 else k.finish⟩

/-- The key of a request. -/
def ofRequest (m : Material) (pass : Option String) (renderPass : String) : PipelineHash :=
  match m.resolvePass pass with
  | .ok p    => ofPass m.id p renderPass
  | .error _ => invalid

/-- The key of a pass is never the one that stands for no pipeline. -/
theorem ofPass_isValid (material : String) (p : Pass) (renderPass : String) :
    (ofPass material p renderPass).isValid = true := by
  unfold ofPass isValid invalid
  simp only [ne_eq, PipelineHash.mk.injEq, decide_not, Bool.not_eq_eq_eq_not, Bool.not_true,
    decide_eq_false_iff_not]
  split
  · decide
  · assumption

theorem ofRequest_eq_invalid_iff {m : Material} {pass : Option String} {renderPass : String} :
    ofRequest m pass renderPass = invalid ↔ ∃ e, m.resolvePass pass = .error e := by
  unfold ofRequest
  cases m.resolvePass pass with
  | error e => simp
  | ok p => simpa [isValid] using ofPass_isValid m.id p renderPass

end PipelineHash

end RenderMaterials
