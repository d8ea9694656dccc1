import RenderMaterials.Shader.Bytecode
import RenderMaterials.Shader.Conditional
import RenderMaterials.Shader.Define
import RenderMaterials.Shader.Include
import RenderMaterials.Shader.Translator

/-!
# Compiling shaders

A shader's file is read, its includes are put in, and the text is read as a module.  One entry point
is asked for by name, and is written as SPIR-V.  The first fault counts, and the request is looked
at before the file.
-/

namespace RenderMaterials

/-- A language that shaders are written in. -/
inductive ShaderLanguage where
  | wgsl
  | glsl
  deriving DecidableEq, Repr

/-- The language of a file: what stands behind the last dot of its path says it. -/
def ShaderLanguage.ofFile? (file : String) : Option ShaderLanguage :=
  match (Text.pieces (· = '.') file).drop 1 |>.getLast? with
  | some "wgsl" => some .wgsl
  | some "glsl" => some .glsl
  | some "vert" => some .glsl
  | some "frag" => some .glsl
  | some "comp" => some .glsl
  | _           => none

namespace Shader

/-- The text of a file with its includes. -/
def resolve (src : Source) (file : String) : Except CompileFault String := do
  let text ← (src.readText file).mapError .inaccessible
  return Text.unlines (← Include.expand src file text)

/-- The lines of a file with its includes. -/
def assemble (src : Source) (file : String) : Except CompileFault (List String) := do
  return Text.lines (← resolve src file)

/-- The lines that a shader in WGSL is read from: those of its file with its includes, where those
that do not count are emptied. -/
def processed (isDefined : String → Bool) (src : Source) (file : String) :
    Except CompileFault (List String) :=
  assemble src file >>= Conditional.select isDefined

/-- Reads a file as a module, in its language.  The conditions of GLSL are left to the front end. -/
def parse (t : Translator) (src : Source) (file : String) (target : ModuleStage)
    (defines : Table String String) : Except CompileFault t.Module :=
  match ShaderLanguage.ofFile? file with
  | none       => .error (.unsupportedFile file)
  | some .wgsl => do
    let lines ← processed defines.has src file
    (t.readWgsl (Text.unlines lines)).mapError .malformedWgsl
  | some .glsl => do
    let text ← resolve src file
    (t.readGlsl target defines text).mapError .malformedGlsl

/-- The version of SPIR-V that is asked for by default. -/
def defaultVersion : Nat × Nat := (1, 3)

/-- Compiles a shader to SPIR-V of a version. -/
def compile (t : Translator) (version : Nat × Nat) (src : Source) (r : CompileRequest) :
    Except CompileFault Bytecode := do
  let some stage := Stage.ofProfile? r.profile | throw (.unknownProfile r.profile)
  let some target := stage.moduleStage? | throw (.unsupportedStage stage)
  let m ← parse t src r.file target (Define.environment stage r.defines)
  let info ← (t.validate m).mapError .invalid
  if (t.entries m).contains ⟨r.entry, target⟩ then
    let words ← (t.write version m info ⟨r.entry, target⟩).mapError .unwritable
    return ⟨stage, r.entry, words.flatMap Spirv.Word.bytes⟩
  else throw (.missingEntry r.entry stage r.file)

end Shader

/-- Compiles shaders with a translator. -/
def Translator.compiler (t : Translator) : Compiler := fun src r =>
  (Shader.compile t Shader.defaultVersion src r).mapError CompileFault.message

end RenderMaterials
