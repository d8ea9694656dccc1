import RenderMaterials.System.Catalog

/-!
# Material systems

A loaded catalog with the tools that build its pipelines and everything that was built so far.  The
source is no part of it: operations that read files take what the source holds at that moment.
-/

namespace RenderMaterials

/-- The place of a material in a catalog. -/
structure MaterialHandle where
  index : Nat
  deriving DecidableEq, Repr

namespace MaterialHandle

/-- The handle of unknown materials; no catalog has so many. -/
def invalid : MaterialHandle := ⟨Nat.pow 2 32 - 1⟩

def isValid (h : MaterialHandle) : Bool := h ≠ invalid

end MaterialHandle

/-- A loaded catalog, its tools and its caches. -/
structure MaterialSystem (σ : Type) where
  tools     : Toolchain σ
  config    : SystemConfig
  /-- The canonical path of the root file. -/
  root      : String
  catalog   : Catalog
  workshop  : Workshop σ
  pipelines : PipelineCache := {}

namespace MaterialSystem

variable {σ : Type}

/-! ### Loading -/

/-- Loads a root file; the caches start empty, and the backend in a given state. -/
def load (tools : Toolchain σ) (device : σ) (config : SystemConfig) (src : Source) (root : String) :
    Except LoadFailure (MaterialSystem σ) := do
  let root ← (Path.normalize root).mapError .single
  let catalog ← Catalog.load config src root
  return { tools, config, root, catalog, workshop := { device } }

/-- Forgets everything that was built, and keeps the counters. -/
def clearCaches (s : MaterialSystem σ) : MaterialSystem σ :=
  { s with
    pipelines := s.pipelines.clear
    workshop  := { s.workshop with layouts := {}, reflections := s.workshop.reflections.clear } }

/-- Loads the root file again and forgets everything that was built.  When the load fails nothing
changes. -/
def reload (s : MaterialSystem σ) (src : Source) : Except LoadFailure Unit × MaterialSystem σ :=
  match Catalog.load s.config src s.root with
  | .ok catalog => (.ok (), { s with catalog }.clearCaches)
  | .error f    => (.error f, s)

/-! ### Materials -/

/-- The handle of an id. -/
def handle (s : MaterialSystem σ) (id : String) : MaterialHandle :=
  ((s.catalog.materialIndex.value? id).map MaterialHandle.mk).getD .invalid

/-- The material of a handle. -/
def material? (s : MaterialSystem σ) (h : MaterialHandle) : Option Material :=
  s.catalog.materials[h.index]?

/-- The material of an id. -/
def materialOfId? (s : MaterialSystem σ) (id : String) : Option Material :=
  s.material? (s.handle id)

/-- A pass of a material. -/
def pass? (s : MaterialSystem σ) (h : MaterialHandle) (name : String) : Option Pass :=
  (s.material? h).bind (·.pass? name)

/-- The material of an id, or else the one that stands in for it. -/
def materialOrFallback? (s : MaterialSystem σ) (id : String) : Option Material :=
  s.materialOfId? id <|> s.config.fallback?.bind s.materialOfId?

/-- The shader files of all materials. -/
def shaderFiles (s : MaterialSystem σ) : List String := s.catalog.shaderUsers.keys

/-! ### Render passes -/

/-- A render pass with the images that its pipelines render to. -/
def renderPassConfig (s : MaterialSystem σ) (name : String) :
    Except MaterialError RenderPassConfig :=
  match s.catalog.renderPass? name with
  | none   => .error (.unknownRenderPass name)
  | some r => RenderPassConfig.resolve r s.catalog.states

/-! ### Pipelines -/

/-- The key of a request for a pipeline, or why the request selects no pass. -/
def requestHash (m : Material) (pass : Option String) (renderPass : String) :
    Except MaterialError PipelineHash :=
  let hash := PipelineHash.ofRequest m pass renderPass
  if hash.isValid then .ok hash else (m.resolvePass pass).map fun _ => hash

/-- Builds a pipeline and keeps it. -/
def buildPipeline (s : MaterialSystem σ) (src : Source) (m : Material) (pass : Option String)
    (renderPass : String) : Except MaterialError CompiledPipeline × MaterialSystem σ :=
  match s.renderPassConfig renderPass with
  | .error e   => (.error e, s)
  | .ok config =>
    match (m.build s.tools src s.catalog.states pass config).run s.workshop with
    | (.error e, workshop) => (.error e, { s with workshop })
    | (.ok p, workshop)    =>
      let (result, pipelines) := s.pipelines.store p
      (result, { s with workshop, pipelines })

/-- The pipeline of a pass of a material in a render pass, built when it is asked for first.  The
pass need not be named when it is the only one. -/
def pipelineFor (s : MaterialSystem σ) (src : Source) (h : MaterialHandle) (pass : Option String)
    (renderPass : String) : Except MaterialError CompiledPipeline × MaterialSystem σ :=
  match s.material? h with
  | none   => (.error (.unknownMaterial s!"handle #{h.index}"), s)
  | some m =>
    match requestHash m pass renderPass with
    | .error e => (.error e, s)
    | .ok hash =>
      match s.pipelines.get hash with
      | (some p, pipelines) => (.ok p, { s with pipelines })
      | (none, pipelines)   => { s with pipelines }.buildPipeline src m pass renderPass

/-- The pipeline of a pass in the render pass of the same name. -/
def pipelineState (s : MaterialSystem σ) (src : Source) (h : MaterialHandle) (pass : String) :
    Option CompiledPipeline × MaterialSystem σ :=
  let (result, s) := s.pipelineFor src h (some pass) pass
  (result.toOption, s)

/-! ### Forgetting -/

/-- Drops the pipelines of a material, and says how many there were. -/
def invalidateMaterial (s : MaterialSystem σ) (id : String) : Nat × MaterialSystem σ :=
  let (dropped, pipelines) := s.pipelines.invalidate id
  (dropped, { s with pipelines })

/-- Forgets the bindings of a material's shaders in a file. -/
def forgetShaders (m : Material) (file : String) (c : ReflectionCache) : ReflectionCache :=
  (m.shaders.filter (·.file = file)).foldl (fun c r => (c.invalidate r.identity).2) c

/-- Forgets what was built for a material from a file. -/
def forgetUser (file : String) (s : MaterialSystem σ) (id : String) : MaterialSystem σ :=
  let reflections := match s.materialOfId? id with
    | some m => forgetShaders m file s.workshop.reflections
    | none   => s.workshop.reflections
  { s with
    workshop  := { s.workshop with reflections }
    pipelines := (s.pipelines.invalidate id).2 }

/-- Forgets what was built from a shader file, and says how many materials use it.  Nothing happens
when edits are not followed. -/
def shaderChanged (s : MaterialSystem σ) (file : String) : Nat × MaterialSystem σ :=
  if !s.config.hotReload then (0, s)
  else match Path.normalize file with
    | .error _ => (0, s)
    | .ok file =>
      let users := (s.catalog.shaderUsers.value? file).getD []
      (users.length, users.foldl (forgetUser file) s)

end MaterialSystem

end RenderMaterials
