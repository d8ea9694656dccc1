import RenderMaterials.Document.Load
import RenderMaterials.Material.Read
import RenderMaterials.Pipeline.Build
import RenderMaterials.System.Config

/-!
# Catalog

What one load of a root document gives: its materials and render passes in order with an index each,
its state blocks, and for each shader file the materials that use it.  Of several entries with one
name the first counts, and disabled materials are left out.
-/

namespace RenderMaterials

/-- The loaded content of a document. -/
structure Catalog where
  materials       : List Material := []
  /-- The place of each material. -/
  materialIndex   : Table String Nat := []
  renderPasses    : List RenderPass := []
  /-- The place of each render pass. -/
  renderPassIndex : Table String Nat := []
  states          : StateRegistry := {}
  /-- The ids of the materials that use a shader file, in the order of loading. -/
  shaderUsers     : Table String (List String) := []
  /-- The merged files. -/
  files           : List String := []
  deriving DecidableEq, Repr

namespace Catalog

/-! ### Adding entries -/

/-- Notes that a material uses a file. -/
def addUser (material : String) (users : Table String (List String)) (file : String) :
    Table String (List String) :=
  let known := (users.value? file).getD []
  if known.contains material then users else users.assign file (known ++ [material])

/-- Adds a material, unless it is disabled or its id is taken. -/
def addMaterial (c : Catalog) (m : Material) : Catalog :=
  if !m.enabled || c.materialIndex.has m.id then c
  else
    { c with
      materials     := c.materials ++ [m]
      materialIndex := c.materialIndex.assign m.id c.materials.length
      shaderUsers   := (m.shaders.map (·.file)).foldl (addUser m.id) c.shaderUsers }

/-- Adds a render pass, unless its name is taken. -/
def addRenderPass (c : Catalog) (r : RenderPass) : Catalog :=
  if c.renderPassIndex.has r.name then c
  else
    { c with
      renderPasses    := c.renderPasses ++ [r]
      renderPassIndex := c.renderPassIndex.assign r.name c.renderPasses.length }

/-! ### Looking up -/

/-- The material of an id. -/
def material? (c : Catalog) (id : String) : Option Material :=
  (c.materialIndex.value? id).bind fun i => c.materials[i]?

/-- The render pass of a name. -/
def renderPass? (c : Catalog) (name : String) : Option RenderPass :=
  (c.renderPassIndex.value? name).bind fun i => c.renderPasses[i]?

/-! ### References -/

/-- The errors of the names in a pass that nothing is declared under. -/
def unresolvedInPass (c : Catalog) (m : Material) (p : Pass) : List MaterialError :=
  let referrer := s!"material '{m.id}' pass '{p.label}'"
  [Document.errorOf (StateBlock.find c.states.rasterizer p.states.rasterizer referrer),
    Document.errorOf (StateBlock.find c.states.depthStencil p.states.depthStencil referrer),
    Document.errorOf (StateBlock.find c.states.blend p.states.blend referrer),
    Document.errorOf (StateBlock.find c.states.renderTarget p.states.renderTarget referrer),
    (p.name?.filter fun n => !c.renderPassIndex.has n).map .unknownRenderPass].filterMap id

/-- The errors of the names in a material that nothing is declared under. -/
def unresolvedInMaterial (c : Catalog) (m : Material) : List MaterialError :=
  (Document.errorOf (m.findVertexFormat c.states)).toList
    ++ m.passes.flatMap (c.unresolvedInPass m)

/-- The errors of all names that nothing is declared under. -/
def unresolved (c : Catalog) : List MaterialError :=
  c.materials.flatMap c.unresolvedInMaterial
    ++ c.renderPasses.filterMap fun r => Document.errorOf (RenderPassConfig.resolve r c.states)

/-! ### Loading -/

/-- A document's content.  Each group of errors is collected before the load fails. -/
def read (config : SystemConfig) (src : Source) (d : Document) : Except LoadFailure Catalog := do
  let faults := config.checkErrors d
  if faults ≠ [] then throw ⟨faults⟩
  let states ← (StateRegistry.read d.states?).mapError .single
  let context := ReadContext.ofDocument src config.shaderRoot d
  let materials := d.materials.map (Material.read context)
  let renderPasses := d.renderPasses.map RenderPass.read
  let c := (materials.filterMap Except.toOption).foldl addMaterial { states, files := d.files }
  let c := (renderPasses.filterMap Except.toOption).foldl addRenderPass c
  let faults := materials.filterMap Document.errorOf ++ renderPasses.filterMap Document.errorOf
    ++ c.unresolved
  if faults.any config.endsLoad then throw ⟨faults.filter config.endsLoad⟩
  return c

/-- The content of a root file with everything that it includes. -/
def load (config : SystemConfig) (src : Source) (root : String) : Except LoadFailure Catalog := do
  read config src (← Document.load src root)

end Catalog

end RenderMaterials
