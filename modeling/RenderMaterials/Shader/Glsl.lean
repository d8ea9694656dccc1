import RenderMaterials.Shader.Conditional
import RenderMaterials.Spirv.Entry
import RenderMaterials.Text.Lines

/-!
# GLSL entry points

The part of GLSL that declares a function `main` that does nothing.  Blank lines, comments, a
version and conditions stand around it.
-/

namespace RenderMaterials.Glsl

/-- What a line says. -/
inductive Line where
  | nothing
  | main
  | malformed
  deriving DecidableEq, Repr

/-- The versions that can be asked for. -/
def versions : List String := ["#version 440", "#version 450", "#version 460"]

/-- What a line says. -/
def lineOf (line : String) : Line :=
  let s := Text.trim line
  if s = "" || versions.contains s || (Text.after? "//".toList s.toList).isSome then .nothing
  else if s = "void main() \x7b\x7d" then .main
  else .malformed

/-- The entry points of a text: it has to declare `main` once. -/
def entryPoints (isDefined : String → Bool) (target : ModuleStage) (text : String) :
    Except String (List EntryPoint) :=
  match Conditional.select isDefined (Text.lines text) with
  | .error fault => .error fault.message
  | .ok ls       =>
    let said := ls.map lineOf
    if said.count .main = 1 && !said.contains .malformed then .ok [⟨⟨"main", target⟩, .call⟩]
    else .error "there has to be one function main that does nothing"

end RenderMaterials.Glsl
