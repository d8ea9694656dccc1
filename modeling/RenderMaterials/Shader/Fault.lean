import RenderMaterials.Error
import RenderMaterials.Shader.Stage

/-!
# Faults of shader sources

The ways in which compiling a shader fails, with their wording.
-/

namespace RenderMaterials

/-- Why a shader cannot be compiled. -/
inductive CompileFault where
  | unknownProfile (profile : String)
  | unsupportedStage (stage : Stage)
  | unsupportedFile (file : String)
  /-- The shader's file cannot be read, or a path in it has no canonical form. -/
  | inaccessible (cause : MaterialError)
  /-- A file that another file includes cannot be read. -/
  | badInclude (target file : String) (cause : MaterialError)
  | elseWithoutCondition (line : Nat)
  | endWithoutCondition (line : Nat)
  | openCondition
  | malformedWgsl (report : String)
  | malformedGlsl (report : String)
  /-- What was read is no valid module. -/
  | invalid (report : String)
  | missingEntry (entry : String) (stage : Stage) (file : String)
  | unwritable (report : String)
  deriving DecidableEq, Repr

namespace CompileFault

/-- The wording of a fault. -/
def message : CompileFault → String
  | unknownProfile profile => s!"unknown target profile '{profile}'"
  | unsupportedStage stage => s!"{stage.name} shaders are not supported by naga"
  | unsupportedFile file => s!"unsupported shader file '{file}'"
  | inaccessible cause => cause.message
  | badInclude target file cause => s!"include \"{target}\" from {file}: {cause.message}"
  | elseWithoutCondition line => s!"line {line}: #else without #ifdef"
  | endWithoutCondition line => s!"line {line}: #endif without #ifdef"
  | openCondition => "unterminated #ifdef block"
  | malformedWgsl report => s!"WGSL parse error: {report}"
  | malformedGlsl report => s!"GLSL parse error:\n{report}"
  | invalid report => s!"Validation error: {report}"
  | missingEntry entry stage file =>
    s!"Entry point '{entry}' not found for {stage.name} stage in {file}"
  | unwritable report => s!"SPIR-V generation error: {report}"

end CompileFault

end RenderMaterials
