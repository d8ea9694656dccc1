import RenderMaterials.Shader.Binding
import RenderMaterials.Source.Basic

/-!
# Compiled shaders

The code of one stage, what makes it and what reads it.
-/

namespace RenderMaterials

/-- Compiled code of one stage. -/
structure Bytecode where
  stage : Stage
  entry : String
  bytes : Bytes
  deriving DecidableEq, Repr

/-- What a compiler is asked for. -/
structure CompileRequest where
  file    : String
  entry   : String
  profile : String
  defines : List String
  deriving DecidableEq, Repr

/-- What makes code of the files of a source, or says why it cannot. -/
abbrev Compiler := Source → CompileRequest → Except String Bytecode

/-- What finds the bindings of compiled code, or says why it cannot. -/
abbrev Reflector := Bytecode → Except String (List Binding)

end RenderMaterials
