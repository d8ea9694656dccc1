import RenderMaterials.System.Basic
import RenderMaterials.Text.Quoted

/-!
# Material instances

A material looked up once, whose passes are then set up by name on what records draw calls.  The
material of an instance is the one that its handle has in the system at that moment.
-/

namespace RenderMaterials

/-- A material that was looked up. -/
structure MaterialInstance where
  handle : MaterialHandle
  deriving DecidableEq, Repr

/-- What a recorder of draw calls is told. -/
inductive EncoderCall where
  | setLayout (layout : GpuLayout)
  | setPipeline (pipeline : GpuPipeline)
  deriving DecidableEq, Repr

namespace MaterialInstance

variable {σ : Type}

/-- The instance of an id; an unknown id has an invalid one. -/
def ofId (s : MaterialSystem σ) (id : String) : MaterialInstance := ⟨s.handle id⟩

/-- Whether there is a material, with at least one pass. -/
def isValid (i : MaterialInstance) (s : MaterialSystem σ) : Bool :=
  (s.material? i.handle).any fun m => !m.passes.isEmpty

/-- The pipeline of a pass in the render pass of the same name. -/
def pipelineState (i : MaterialInstance) (s : MaterialSystem σ) (src : Source) (pass : String) :
    Option CompiledPipeline × MaterialSystem σ :=
  if i.handle.isValid then s.pipelineState src i.handle pass else (none, s)

/-- Tells a recorder the layout and the pipeline of a pass.  It is told nothing when there is no
such pass or no pipeline for it. -/
def setup (i : MaterialInstance) (s : MaterialSystem σ) (src : Source) (pass : String) :
    List EncoderCall × MaterialSystem σ :=
  if (s.pass? i.handle pass).isSome then
    match i.pipelineState s src pass with
    | (some p, s) => ([.setLayout p.layout, .setPipeline p.pipeline], s)
    | (none, s)   => ([], s)
  else ([], s)

/-- An instance as diagnostics show it. -/
def describe (i : MaterialInstance) (s : MaterialSystem σ) : String :=
  let material := match s.material? i.handle with
    | some m => "Some(" ++ Text.quoted m.id ++ ")"
    | none   => "None"
  "MaterialInstance \x7b handle: MaterialHandle(" ++ toString i.handle.index ++ "), material: "
    ++ material ++ " \x7d"

end MaterialInstance

end RenderMaterials
