import RenderMaterials.Shader.Stage
import RenderMaterials.Spirv.Module
import RenderMaterials.Table

/-!
# Translators

What shaders are compiled and reflected with: front ends for the languages of shaders and for
SPIR-V, the validation of the modules that these read, and the writing of SPIR-V.  None of it is
made here.  A module is known by its entry points and global variables, and by the variables that
validation finds to be used in each entry point.
-/

namespace RenderMaterials

/-- A stage that modules have entry points of. -/
inductive ModuleStage where
  | vertex | fragment | compute
  deriving DecidableEq, Repr

/-- The pipeline stage of an entry point. -/
def ModuleStage.stage : ModuleStage → Stage
  | vertex   => .vertex
  | fragment => .pixel
  | compute  => .compute

namespace Stage

/-- The stage of the entry points that a pipeline stage runs; hull, domain and geometry shaders have
none. -/
def moduleStage? : Stage → Option ModuleStage
  | vertex  => some .vertex
  | pixel   => some .fragment
  | compute => some .compute
  | _       => none

theorem moduleStage?_eq_some {s : Stage} {m : ModuleStage} :
    s.moduleStage? = some m ↔ m.stage = s := by
  cases s <;> cases m <;> decide

end Stage

/-- An entry point of a module. -/
structure ModuleEntry where
  name  : String
  stage : ModuleStage
  deriving DecidableEq, Repr

/-- What can be done with a buffer or an image. -/
structure StorageAccess where
  load  : Bool
  store : Bool
  deriving DecidableEq, Repr

/-- Where a variable lives; all places without resources are one. -/
inductive AddressSpace where
  | uniform
  | storage (access : StorageAccess)
  | handle
  | other
  deriving DecidableEq, Repr

/-- The type of a variable, as far as handles are told apart. -/
inductive HandleType where
  | sampler
  | image
  | storageImage (access : StorageAccess)
  /-- Handles that are bound as an array. -/
  | array (base : HandleType)
  | other
  deriving DecidableEq, Repr

/-- A descriptor set, and a binding in it. -/
structure ResourcePlace where
  group   : Nat
  binding : Nat
  deriving DecidableEq, Repr

/-- A global variable of a module. -/
structure GlobalVariable where
  /-- Missing when the module was stripped of its names. -/
  name?  : Option String
  space  : AddressSpace
  place? : Option ResourcePlace
  type   : HandleType
  deriving DecidableEq, Repr

/-- The tools that shaders are compiled and reflected with; their reports are texts. -/
structure Translator where
  /-- What is read. -/
  Module    : Type
  /-- What validation finds out about a module. -/
  Info      : Type
  readWgsl  : (text : String) → Except String Module
  readGlsl  : ModuleStage → (defines : Table String String) → (text : String) →
    Except String Module
  readSpirv : Bytes → Except String Module
  validate  : Module → Except String Info
  entries   : Module → List ModuleEntry
  globals   : Module → List GlobalVariable
  /-- Whether an entry point uses a global variable, by the places of both. -/
  uses      : Info → (entry global : Nat) → Bool
  /-- Writes one entry point in a version of SPIR-V. -/
  write     : (version : Nat × Nat) → Module → Info → ModuleEntry →
    Except String (List Spirv.Word)

end RenderMaterials
