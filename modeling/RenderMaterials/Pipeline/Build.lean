import RenderMaterials.Layout.Cache
import RenderMaterials.Pipeline.Cache
import RenderMaterials.Reflection.Cache
import RenderMaterials.Source.Basic
import RenderMaterials.State.Registry

/-!
# Building pipelines

A pass becomes a pipeline in this order: its stages and state blocks are checked; each shader is
compiled, reflected and merged into the layout; the pass's own bindings are merged; the layout is
made; the backend is asked for the pipeline.  The tools that are asked on the way are recorded.
-/

namespace RenderMaterials

/-- The tools that pipelines are built with. -/
structure Toolchain (σ : Type) where
  compile : Compiler
  reflect : Reflector
  backend : Backend σ

/-- One call of a tool. -/
inductive ToolCall where
  | compile (request : CompileRequest)
  | reflect (code : Bytecode)
  | layout (native : NativeLayout)
  | pipeline (descriptor : Descriptor)
  deriving DecidableEq, Repr

/-- What building keeps from one pipeline to the next. -/
structure Workshop (σ : Type) where
  reflections : ReflectionCache := {}
  layouts     : LayoutCache := {}
  /-- The state of the backend. -/
  device      : σ
  /-- The calls of tools so far. -/
  calls       : List ToolCall := []

/-- Steps of building: they may fail, and what they have changed stays changed. -/
abbrev Build (σ : Type) := ExceptT MaterialError (StateM (Workshop σ))

namespace Build

variable {σ : Type}

/-- A result that needs no tools. -/
def lift {α : Type} (r : Except MaterialError α) : Build σ α := ExceptT.mk (pure r)

/-- Records a call. -/
def record (c : ToolCall) : Build σ Unit :=
  modify fun w => { w with calls := w.calls ++ [c] }

/-- The code of a shader. -/
def compile (tools : Toolchain σ) (src : Source) (material pass : String) (s : ShaderReference) :
    Build σ Bytecode := do
  let request : CompileRequest := ⟨s.file, s.entry, s.profile, s.defines⟩
  record (.compile request)
  match tools.compile src request with
  | .ok code      => return code
  | .error reason => throw (.shaderCompilation material pass s.stage.name reason)

/-- The bindings of code. -/
def reflect (tools : Toolchain σ) (code : Bytecode) (identity : String) :
    Build σ (List Binding) := do
  let answer := (← get).reflections.getOrReflect tools.reflect code identity
  if answer.asked then record (.reflect code)
  modify fun w => { w with reflections := answer.cache }
  lift answer.result

/-- The layout of a specification. -/
def layout (tools : Toolchain σ) (spec : LayoutSpec) : Build σ GpuLayout := do
  let w ← get
  let answer := w.layouts.getOrCreate tools.backend w.device spec
  if let some native := answer.asked? then record (.layout native)
  modify fun w => { w with layouts := answer.cache, device := answer.device }
  lift answer.result

/-- The pipeline of a descriptor. -/
def pipeline (tools : Toolchain σ) (d : Descriptor) : Build σ GpuPipeline := do
  record (.pipeline d)
  let (result, device) := tools.backend.createPipeline d (← get).device
  modify fun w => { w with device }
  lift result

/-- The code of a list of shaders, with their bindings merged into a layout. -/
def shaders (tools : Toolchain σ) (src : Source) (material pass : String) :
    LayoutBuilder → List ShaderReference → Build σ (LayoutBuilder × List Bytecode)
  | l, []      => return (l, [])
  | l, s :: ss => do
    let code ← compile tools src material pass s
    let bindings ← reflect tools code s.identity
    let (l, added) := l.add bindings
    lift added
    let (l, rest) ← shaders tools src material pass l ss
    return (l, code :: rest)

end Build

namespace Pass

/-- Compute shaders stand alone, and all other passes have a vertex shader. -/
def checkStages (material : String) (p : Pass) : Except MaterialError Unit :=
  let has (s : Stage) := p.shaders.any (·.stage = s)
  if has .compute then
    if p.shaders.length > 1 then .error (.mixedComputeStages material p.label) else .ok ()
  else if has .vertex then .ok ()
  else .error (.missingVertexShader material p.label)

/-- The layout of a pass: what its shaders bind, with the bindings that it declares itself. -/
def finish (p : Pass) (l : LayoutBuilder) : Except MaterialError LayoutSpec :=
  (l.add p.bindings).2.map fun _ => (l.add p.bindings).1.build

end Pass

/-- A pass with the state blocks that it is built with. -/
structure Setting where
  pass         : Pass
  rasterizer   : RasterizerState
  depthStencil : DepthStencilState
  blend        : BlendState
  renderTarget : RenderTargetState

namespace Setting

/-- What the backend is asked for. -/
def descriptor (s : Setting) (label : String) (stages : List Bytecode)
    (vertexFormat? : Option VertexFormat) (layout : GpuLayout) : Descriptor where
  label
  stages
  layout
  vertexFormat?
  rasterizer   := s.rasterizer
  depthStencil := s.depthStencil
  blend        := s.blend
  renderTarget := s.renderTarget
  topology     := s.pass.topology

end Setting

namespace StateBlock

/-- The block of an id that a referrer names; without an id, the block that says nothing. -/
def find {α : Type} [StateBlock α] (blocks : Table String α) (id : Option String)
    (referrer : String) : Except MaterialError α :=
  match id with
  | none    => .ok initial
  | some id =>
    match blocks.value? id with
    | some b => .ok b
    | none   => .error (.missingStateBlock (category α) id referrer)

end StateBlock

/-- A render pass with the images that its pipelines render to. -/
structure RenderPassConfig where
  name   : String
  target : RenderTargetState
  deriving DecidableEq, Repr

namespace RenderPassConfig

/-- A render pass with the block that it names. -/
def resolve (r : RenderPass) (states : StateRegistry) : Except MaterialError RenderPassConfig := do
  return ⟨r.name,
    ← StateBlock.find states.renderTarget r.renderTarget? s!"render pass '{r.name}'"⟩

end RenderPassConfig

namespace Material

/-- The vertex format of a material. -/
def findVertexFormat (m : Material) (states : StateRegistry) : Except MaterialError VertexFormat :=
  match m.vertexFormat? with
  | none    => .ok .fallback
  | some id => StateBlock.find states.vertexFormat (some id) s!"material '{m.id}'"

/-- The vertex format of a pass; a compute pass has none. -/
def vertices (m : Material) (states : StateRegistry) (p : Pass) :
    Except MaterialError (Option VertexFormat) :=
  if p.isCompute then .ok none else (m.findVertexFormat states).map some

/-- A pass with the state blocks that it names, once its stages are checked. -/
def setting (m : Material) (states : StateRegistry) (pass : Option String)
    (renderPass : RenderPassConfig) : Except MaterialError Setting := do
  let p ← m.resolvePass pass
  p.checkStages m.id
  let referrer := s!"material '{m.id}' pass '{p.label}'"
  return {
    pass         := p
    rasterizer   := ← StateBlock.find states.rasterizer p.states.rasterizer referrer
    depthStencil := ← StateBlock.find states.depthStencil p.states.depthStencil referrer
    blend        := ← StateBlock.find states.blend p.states.blend referrer
    renderTarget := ←
      if p.states.renderTarget.isSome then
        StateBlock.find states.renderTarget p.states.renderTarget referrer
      else .ok renderPass.target }

/-- Builds the pipeline of a pass for a render pass. -/
def build {σ : Type} (tools : Toolchain σ) (src : Source) (states : StateRegistry) (m : Material)
    (pass : Option String) (renderPass : RenderPassConfig) : Build σ CompiledPipeline := do
  let s ← Build.lift (m.setting states pass renderPass)
  let (l, stages) ← Build.shaders tools src m.id s.pass.label {} s.pass.shaders
  let spec ← Build.lift (s.pass.finish l)
  let layout ← Build.layout tools spec
  let vertexFormat? ← Build.lift (m.vertices states s.pass)
  let pipeline ← Build.pipeline tools
    (s.descriptor s!"{m.id}/{s.pass.label}@{renderPass.name}" stages vertexFormat? layout)
  return {
    hash       := PipelineHash.ofRequest m pass renderPass.name
    material   := m.id
    pass?      := s.pass.name?
    renderPass := renderPass.name
    pipeline, layout, spec }

end Material

end RenderMaterials
