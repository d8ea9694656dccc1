import RenderMaterials.Shader.Compile
import RenderMaterials.Shader.Glsl
import RenderMaterials.Shader.Wgsl
import RenderMaterials.Spirv.Usage

/-!
# A basic translator

Reads shaders whose entry points have no resources and do next to nothing, and SPIR-V as far as it
says what is used.
-/

namespace RenderMaterials

/-- What the basic translator reads. -/
inductive BasicModule where
  | text (points : List EntryPoint)
  | spirv (usage : ModuleUsage)

namespace BasicModule

/-- The entry points of a module. -/
def entries : BasicModule → List ModuleEntry
  | text points => points.map EntryPoint.entry
  | spirv usage => usage.entries

/-- The variables of a module. -/
def globals : BasicModule → List GlobalVariable
  | text _      => []
  | spirv usage => usage.globals

/-- Which entry points use which variables. -/
def uses : BasicModule → (entry global : Nat) → Bool
  | text _      => fun _ _ => false
  | spirv usage => usage.uses

/-- One entry point of a text in SPIR-V. -/
def write (version : Nat × Nat) (m : BasicModule) (entry : ModuleEntry) :
    Except String (List Spirv.Word) :=
  match m with
  | text points =>
    match points.find? (·.entry = entry) with
    | some p => .ok (Spirv.Entry.moduleOf version p).words
    | none   => .error "no such entry point"
  | spirv _     => .error "SPIR-V is not written again"

end BasicModule

namespace Translator

/-- The basic translator. -/
def basic : Translator where
  Module    := BasicModule
  Info      := Nat → Nat → Bool
  readWgsl text := (Wgsl.entryPoints text).map .text
  readGlsl target defines text := (Glsl.entryPoints defines.has target text).map .text
  readSpirv bytes :=
    match (Spirv.Module.ofBytes? bytes).bind Spirv.Module.usage? with
    | some usage => .ok (.spirv usage)
    | none       => .error "the module is cut off or has an unknown entry point"
  validate m := .ok m.uses
  entries   := BasicModule.entries
  globals   := BasicModule.globals
  uses info := info
  write version m _ entry := m.write version entry

end Translator

end RenderMaterials
