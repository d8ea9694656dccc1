import RenderMaterials.Document.Check
import RenderMaterials.Material.Basic
import RenderMaterials.Shader.Define
import RenderMaterials.Source.Basic
import RenderMaterials.Source.Path

/-!
# Reading materials

Materials and render passes from their JSON form.  A material has either a `passes` array or, with
the same fields directly in it, one pass.  Shader files are looked for in the source, below the
shader root; a shader declared by an id is taken from the library of its stage.
-/

namespace RenderMaterials

/-- What materials are read against. -/
structure ReadContext where
  source        : Source
  shaderRoot    : String
  /-- Shader libraries by stage. -/
  library       : JsonObject := []
  /-- Defines of all shaders, sorted. -/
  globalDefines : List String := []

namespace ReadContext

/-- A context with the shader libraries and global defines of a document. -/
def ofDocument (source : Source) (shaderRoot : String) (d : Document) : ReadContext where
  source
  shaderRoot
  library       := d.shaders?.getD []
  globalDefines := (d.defines?.map Define.ofObject).getD []

end ReadContext

/-- A text field that has to be there. -/
def Json.requiredText (v : Json) (field context : String) : Except MaterialError String :=
  match v.textField? field with
  | some s => .ok s
  | none   => .error (.missingField context field)

/-! ### Parts -/

/-- A declared parameter. -/
def Parameter.read (v : Json) : Except MaterialError Parameter := do
  let type ← Parameter.check v
  let name ← v.requiredText "name" "parameter"
  return ⟨name, type, (Parameter.declaredDefault? v).bind type.value?⟩

/-- The parameters in a value's field. -/
def Parameter.readField (v : Json) : Except MaterialError (List Parameter) :=
  ((v.arrayField? "parameters").getD []).mapM Parameter.read

/-- The parameters of a pass, then those of its material that it does not declare itself. -/
def Parameter.inherit (own inherited : List Parameter) : List Parameter :=
  inherited.foldl (fun ps p => if ps.any (·.name = p.name) then ps else ps ++ [p]) own

/-- The state blocks that a value names. -/
def StateReferences.readField (v : Json) : StateReferences :=
  let name (key : String) := (v.field? "states").bind (·.textField? key)
  { rasterizer   := name "rasterizer"
    depthStencil := name "depthStencil"
    blend        := name "blend"
    renderTarget := name "renderTarget" }

/-- The topology that a value declares, if it declares one. -/
def Topology.read? (material : String) : Option Json → Except MaterialError (Option Topology)
  | none   => .ok none
  | some v =>
    match v.text?.bind ofName? with
    | some t => .ok (some t)
    | none   =>
      .error (.invalidStateValue s!"material '{material}'" "primitiveTopology" v.compact)

/-- A binding declared with its name, kind and perhaps slot. -/
def Binding.read (stages : StageSet) (v : Json) : Except MaterialError Binding := do
  let name ← v.requiredText "name" "binding"
  let kindName := (v.textField? "kind").getD ""
  let some kind := BindingKind.ofName? kindName
    | throw (.invalidStateValue "binding" "kind" kindName)
  match v.field? "slot" with
  | none      => return { name, kind, stages }
  | some slot =>
    match slot.natural?.filter (· < Nat.pow 2 32) with
    | some n => return { name, kind, slot := some n, stages }
    | none   => throw (.invalidStateValue "binding" "slot" slot.compact)

/-- The bindings in a value's field, seen by all stages of the pass. -/
def Binding.readField (v : Json) (shaders : List ShaderReference) :
    Except MaterialError (List Binding) :=
  ((v.arrayField? "bindings").getD []).mapM (Binding.read (.ofList (shaders.map (·.stage))))

/-! ### Shaders -/

namespace ShaderReference

/-- The first entry of an id in a library. -/
def libraryItem? (id : String) : Json → Option Json
  | .object es    => Table.value? es id
  | .array items  => items.find? (fun v => v.textField? "id" = some id)
  | _             => none

/-- The declaration that an id names: in the library under the stage's name as it is written, or
else under the stage's own name. -/
def declaration? (ctx : ReadContext) (stage : Stage) (written id : String) : Option Json :=
  (ctx.library.value? written <|> ctx.library.value? stage.name).bind (libraryItem? id)

/-- The defines of a declaration. -/
def declaredDefines (v : Json) : List String :=
  match v.field? "defines" with
  | some (.array items) => items.filterMap Json.text?
  | some (.object es)   => Define.ofObject es
  | _                   => []

/-- The entry point of a declaration that names none. -/
def defaultEntry : String := "main"

/-- A shader from a declaration with its id, if it has one. -/
def ofDeclaration (ctx : ReadContext) (material : String) (stage : Stage) (id? : Option String)
    (v : Json) : Except MaterialError ShaderReference := do
  let context := s!"material '{material}' {stage.name} shader"
  let written ← v.requiredText "file" context
  let profile ← v.requiredText "profile" context
  let entry := ((v.field? "entry" <|> v.field? "entryPoint").bind Json.text?).getD defaultEntry
  let file ← Path.join ctx.shaderRoot written
  if !ctx.source.contains file then
    throw (.shaderFileNotFound material (ctx.source.describe file))
  if !stage.acceptsProfile profile then
    throw (.invalidProfile material stage.name profile)
  let defines := Define.toSet (declaredDefines v ++ ctx.globalDefines)
  return {
    stage, file, entry, profile, defines
    id := id?.getD (identityOf file entry profile defines) }

/-- A shader declared in place or by the id of a library entry. -/
def read (ctx : ReadContext) (material : String) (stage : Stage) (written : String) (v : Json) :
    Except MaterialError ShaderReference :=
  match v with
  | .text id =>
    match declaration? ctx stage written id with
    | some entry => ofDeclaration ctx material stage (some id) entry
    | none       => .error (.unknownShader material stage.name id)
  | v => ofDeclaration ctx material stage (v.textField? "id") v

/-- A declaration in place is read with the id in it, if it has one. -/
theorem read_of_inPlace {ctx : ReadContext} {material written : String} {stage : Stage} {v : Json}
    (h : v.text? = none) :
    read ctx material stage written v =
      ofDeclaration ctx material stage (v.textField? "id") v := by
  cases v with
  | text id => cases h
  | null => rfl
  | bool b => rfl
  | number n => rfl
  | array items => rfl
  | object fields => rfl

/-- The declarations of a pass with their stages as written. -/
def declarations (material : String) : Json → Except MaterialError (List (String × Json))
  | .object es    => .ok es
  | .array items  => items.mapM fun v =>
    return (← v.requiredText "stage" s!"material '{material}' shader", v)
  | _             =>
    .error (.invalidDocument s!"material '{material}'" "'shaders' must be an object or an array")

/-- The shaders of declarations, after those already read. -/
def readEach (ctx : ReadContext) (material pass : String) :
    List ShaderReference → List (String × Json) → Except MaterialError (List ShaderReference)
  | found, []                => .ok found
  | found, (written, v) :: r => do
    let some stage := Stage.ofName? written
      | throw (.unknownShaderStage material written)
    if found.any (·.stage = stage) then
      throw (.duplicateShaderStage material pass stage.name)
    readEach ctx material pass (found ++ [← read ctx material stage written v]) r

/-- The shaders of a pass, one for each stage. -/
def readAll (ctx : ReadContext) (material pass : String) (v : Json) :
    Except MaterialError (List ShaderReference) := do
  readEach ctx material pass [] (← declarations material v)

end ShaderReference

/-! ### Passes and materials -/

/-- What passes take over from their material. -/
structure PassDefaults where
  states     : StateReferences
  parameters : List Parameter
  topology   : Topology

/-- An element of a material's `passes`. -/
def Pass.read (ctx : ReadContext) (material : String) (whole : Json) (defaults : PassDefaults)
    (v : Json) : Except MaterialError Pass := do
  let name? := v.textField? "name"
  let label := name?.getD defaultLabel
  let some shadersField := v.field? "shaders" <|> whole.field? "shaders"
    | throw (.missingField s!"material '{material}' pass '{label}'" "shaders")
  let shaders ← ShaderReference.readAll ctx material label shadersField
  let topology ← Topology.read? material (v.field? "primitiveTopology" <|> v.field? "topology")
  let parameters ← Parameter.readField v
  let bindings ← Binding.readField v shaders
  return {
    name?, shaders, bindings
    states     := (StateReferences.readField v).orElse defaults.states
    parameters := Parameter.inherit parameters defaults.parameters
    topology   := topology.getD defaults.topology }

/-- The only pass of a material without `passes`. -/
def Pass.readSingle (ctx : ReadContext) (material : String) (whole : Json)
    (defaults : PassDefaults) : Except MaterialError Pass := do
  let name? := whole.textField? "pass"
  let some shadersField := whole.field? "shaders"
    | throw (.missingField s!"material '{material}'" "shaders")
  let shaders ← ShaderReference.readAll ctx material (name?.getD defaultLabel) shadersField
  let bindings ← Binding.readField whole shaders
  return {
    name?, shaders, bindings
    states     := defaults.states
    parameters := defaults.parameters
    topology   := defaults.topology }

/-- Several passes have names, each its own; `index` is the number of passes before these. -/
def Pass.checkNames (material : String) (index : Nat) (seen : List String) :
    List Pass → Except MaterialError Unit
  | []      => .ok ()
  | p :: ps =>
    match p.name? with
    | none      =>
      .error (.ambiguousPass material s!"pass #{index} of a multi-pass material has no name")
    | some name =>
      if seen.contains name then
        .error (.ambiguousPass material s!"pass name '{name}' is used more than once")
      else checkNames material (index + 1) (name :: seen) ps

/-- The passes of a material. -/
def Pass.readAll (ctx : ReadContext) (material : String) (whole : Json) (defaults : PassDefaults) :
    Except MaterialError (List Pass) :=
  match whole.field? "passes" with
  | none                => do return [← Pass.readSingle ctx material whole defaults]
  | some (.array items) => do
    if items.isEmpty then throw (.missingField s!"material '{material}'" "passes")
    let passes ← items.mapM (Pass.read ctx material whole defaults)
    if passes.length ≥ 2 then Pass.checkNames material 0 [] passes
    return passes
  | some _              =>
    .error (.invalidDocument s!"material '{material}'" "'passes' must be an array")

/-- A material. -/
def Material.read (ctx : ReadContext) (v : Json) : Except MaterialError Material := do
  let id ← v.requiredText "id" "material"
  let topology ← Topology.read? id (v.field? "primitiveTopology")
  let parameters ← Parameter.readField v
  let passes ← Pass.readAll ctx id v {
    states := StateReferences.readField v
    parameters
    topology := topology.getD .triangle }
  return {
    id, passes
    vertexFormat? := v.textField? "vertexFormat"
    enabled       := ((v.field? "enabled").bind Json.bool?).getD true
    versionHash   := (v.textField? "versionHash").getD "" }

/-- The queue of render passes that name none. -/
def RenderPass.defaultQueue : String := "geometry"

/-- A render pass. -/
def RenderPass.read (v : Json) : Except MaterialError RenderPass := do
  let name ← v.requiredText "name" "render pass"
  return {
    name
    queue         := (v.textField? "queue").getD defaultQueue
    renderTarget? := (v.field? "states").bind (·.textField? "renderTarget") }

end RenderMaterials
