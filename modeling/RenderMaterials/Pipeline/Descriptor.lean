import RenderMaterials.Layout.Native
import RenderMaterials.Material.Basic
import RenderMaterials.Shader.Bytecode
import RenderMaterials.State.Blocks

/-!
# Pipeline descriptors

Everything that a backend needs to make a pipeline, and the handles that backends give out.
-/

namespace RenderMaterials

/-- A backend's layout: a numbered stand-in that knows its words, or an object of a graphics
interface. -/
inductive GpuLayout where
  | simulated (id words : Nat)
  | native (object : Nat)
  deriving DecidableEq, Repr

/-- A backend's pipeline: a numbered stand-in, or an object of a graphics interface. -/
inductive GpuPipeline where
  | simulated (id : Nat) (label : String) (compute : Bool)
  | native (object : String)
  deriving DecidableEq, Repr

/-- What a pipeline is made from. -/
structure Descriptor where
  /-- Material, pass and render pass. -/
  label         : String
  stages        : List Bytecode
  layout        : GpuLayout
  rasterizer    : RasterizerState
  depthStencil  : DepthStencilState
  blend         : BlendState
  renderTarget  : RenderTargetState
  /-- Missing for compute pipelines. -/
  vertexFormat? : Option VertexFormat
  topology      : Topology
  deriving DecidableEq, Repr

namespace Descriptor

/-- Whether there are stages, and only compute stages. -/
def isCompute (d : Descriptor) : Bool := d.stages ≠ [] && d.stages.all (·.stage = .compute)

/-- The code of a stage. -/
def stage? (d : Descriptor) (s : Stage) : Option Bytecode := d.stages.find? (·.stage = s)

end Descriptor

end RenderMaterials
