import RenderMaterials.Shader.Bytecode
import RenderMaterials.Shader.Translator

/-!
# Resource usage

The resources that the entry points of a module use, and the bindings that they amount to.  A
resource is a global variable with a place and of a kind.  It counts once for a name: a later use
only adds the stage that it is made in.
-/

namespace RenderMaterials

/-! ### Kinds -/

/-- The kind of what shaders load from, and maybe store to. -/
def StorageAccess.kind (a : StorageAccess) : BindingKind :=
  if a.store then .readWriteResource else .readOnlyResource

namespace HandleType

/-- The type of the handles in an array; any other type itself. -/
def entry : HandleType → HandleType
  | array base => base
  | t          => t

/-- The kind of a handle, if it is a resource. -/
def kind? : HandleType → Option BindingKind
  | sampler             => some .sampler
  | storageImage access => some access.kind
  | image               => some .readOnlyResource
  | _                   => none

end HandleType

/-- The kind of a variable, if it is a resource. -/
def GlobalVariable.kind? (v : GlobalVariable) : Option BindingKind :=
  match v.space with
  | .uniform        => some .constantBuffer
  | .storage access => some access.kind
  | .handle         => v.type.entry.kind?
  | .other          => none

/-! ### Uses -/

/-- A resource that a module declares. -/
structure ShaderResource where
  name?   : Option String
  group   : Nat
  binding : Nat
  kind    : BindingKind
  deriving DecidableEq, Repr

namespace ShaderResource

/-- The name of a resource; one without a name is called after its place. -/
def name (r : ShaderResource) : String := r.name?.getD s!"set{r.group}_binding{r.binding}"

/-- The binding of a resource that one stage uses. -/
def toBinding (r : ShaderResource) (s : Stage) : Binding :=
  ⟨r.name, r.kind, some r.binding, .single s⟩

end ShaderResource

/-- The resource that a variable is: one with a place, and of a kind. -/
def GlobalVariable.resource? (v : GlobalVariable) : Option ShaderResource := do
  let place ← v.place?
  let kind ← v.kind?
  return ⟨v.name?, place.group, place.binding, kind⟩

/-- An entry point with the resources that it uses, in the order of their declarations. -/
structure StageUse where
  stage     : Stage
  resources : List ShaderResource
  deriving DecidableEq, Repr

namespace StageUse

/-- Adds a use: to the binding of the resource's name, or as a new one at the end. -/
def addUse (s : Stage) (r : ShaderResource) : List Binding → List Binding
  | []      => [r.toBinding s]
  | b :: bs =>
    if b.name = r.name then { b with stages := b.stages.union (.single s) } :: bs
    else b :: addUse s r bs

/-- Adds the uses of an entry point. -/
def addTo (u : StageUse) (bs : List Binding) : List Binding :=
  u.resources.foldl (fun bs r => addUse u.stage r bs) bs

/-- The bindings of all entry points. -/
def bindings (us : List StageUse) : List Binding := us.foldl (fun bs u => u.addTo bs) []

end StageUse

/-! ### Modules -/

/-- The entry points and the variables of a module, and which of them use which, by their places. -/
structure ModuleUsage where
  entries : List ModuleEntry
  globals : List GlobalVariable
  uses    : (entry global : Nat) → Bool

namespace ModuleUsage

/-- The resources that an entry point uses. -/
def usedBy (u : ModuleUsage) (entry : Nat) : List ShaderResource :=
  u.globals.zipIdx.filterMap fun v => if u.uses entry v.2 then v.1.resource? else none

/-- The entry points with the resources that they use. -/
def stageUses (u : ModuleUsage) : List StageUse :=
  u.entries.zipIdx.map fun e => ⟨e.1.stage.stage, u.usedBy e.2⟩

/-- The bindings of a module. -/
def bindings (u : ModuleUsage) : List Binding := StageUse.bindings u.stageUses

end ModuleUsage

namespace Translator

/-- What is known of a module that was validated. -/
def usage (t : Translator) (m : t.Module) (info : t.Info) : ModuleUsage :=
  ⟨t.entries m, t.globals m, t.uses info⟩

/-- Finds the bindings of SPIR-V code with a translator. -/
def reflector (t : Translator) : Reflector := fun code => do
  let m ← (t.readSpirv code.bytes).mapError (s!"SPIR-V parse error: {·}")
  let info ← (t.validate m).mapError (s!"Validation error: {·}")
  return (t.usage m info).bindings

end Translator

end RenderMaterials
