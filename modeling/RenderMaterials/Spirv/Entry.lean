import RenderMaterials.Shader.Translator

/-!
# Entry points in SPIR-V

The execution models of stages, and the smallest modules: one entry point without resources.
-/

namespace RenderMaterials

namespace ModuleStage

/-- The execution model of a stage. -/
def executionModel : ModuleStage → Spirv.Word
  | vertex   => 0
  | fragment => 4
  | compute  => 5

/-- The stage of an execution model. -/
def ofExecutionModel? (model : Spirv.Word) : Option ModuleStage :=
  [vertex, fragment, compute].find? (·.executionModel = model)

end ModuleStage

/-- What an entry point does. -/
inductive EntryBody where
  | nothing
  /-- Writes the origin as the position of the vertex. -/
  | position
  /-- Calls a function that does nothing. -/
  | call
  deriving DecidableEq, Repr

/-- An entry point without resources. -/
structure EntryPoint where
  entry : ModuleEntry
  body  : EntryBody
  deriving DecidableEq, Repr

namespace Spirv.Entry

/-- The number of the program that writes modules. -/
def generator : Word := 28

/-- The instructions that modules start with. -/
def header : List Instruction :=
  [⟨Op.capability, [1]⟩, ⟨Op.importInstructions, 1 :: literal "GLSL.std.450"⟩,
    ⟨Op.memoryModel, [0, 1]⟩]

/-- How a stage runs. -/
def modes (main : Id) : ModuleStage → List Instruction
  | .vertex   => []
  | .fragment => [⟨Op.executionMode, [main, 7]⟩]
  | .compute  => [⟨Op.executionMode, [main, 17, 1, 1, 1]⟩]

/-- A function in two blocks, the second one with some instructions. -/
def function (id type start next : Id) (body : List Instruction) : List Instruction :=
  [⟨Op.function, [2, id, 0, type]⟩, ⟨Op.label, [start]⟩, ⟨Op.branch, [next]⟩,
    ⟨Op.label, [next]⟩] ++ body ++ [⟨Op.returnVoid, []⟩, ⟨Op.functionEnd, []⟩]

/-- An entry point that does nothing. -/
def nothing (e : ModuleEntry) : Word × List Instruction :=
  (7, header ++ [⟨Op.entryPoint, e.stage.executionModel :: 4 :: literal e.name⟩]
    ++ modes 4 e.stage
    ++ [⟨Op.name, 4 :: literal e.name⟩, ⟨Op.typeVoid, [2]⟩, ⟨Op.typeFunction, [5, 2]⟩]
    ++ function 4 5 3 6 [])

/-- An entry point that writes the origin. -/
def position (e : ModuleEntry) : Word × List Instruction :=
  (12, header ++ [⟨Op.entryPoint, e.stage.executionModel :: 8 :: literal e.name ++ [6]⟩]
    ++ modes 8 e.stage
    ++ [⟨Op.name, 8 :: literal e.name⟩, ⟨Op.decorate, [6, 11, 0]⟩, ⟨Op.typeVoid, [2]⟩,
      ⟨Op.typeFloat, [4, 32]⟩, ⟨Op.typeVector, [3, 4, 4]⟩, ⟨Op.typePointer, [7, 3, 3]⟩,
      ⟨Op.declareVariable, [7, 6, 3]⟩, ⟨Op.typeFunction, [9, 2]⟩, ⟨Op.constantNull, [3, 10]⟩]
    ++ function 8 9 5 11 [⟨Op.store, [6, 10]⟩])

/-- An entry point that calls a function. -/
def call (e : ModuleEntry) : Word × List Instruction :=
  (11, header ++ [⟨Op.entryPoint, e.stage.executionModel :: 8 :: literal e.name⟩]
    ++ modes 8 e.stage
    ++ [⟨Op.name, 4 :: literal e.name⟩, ⟨Op.name, 8 :: literal e.name⟩, ⟨Op.typeVoid, [2]⟩,
      ⟨Op.typeFunction, [5, 2]⟩]
    ++ function 4 5 3 6 [] ++ function 8 5 7 9 [⟨Op.functionCall, [2, 10, 4]⟩])

/-- The bound of the ids and the instructions of an entry point. -/
def parts (e : EntryPoint) : Word × List Instruction :=
  match e.body with
  | .nothing  => nothing e.entry
  | .position => position e.entry
  | .call     => call e.entry

/-- The module of an entry point in a version. -/
def moduleOf (version : Nat × Nat) (e : EntryPoint) : Module where
  version := .ofNat (version.1 * 65536 + version.2 * 256)
  generator := generator
  bound := (parts e).1
  instructions := (parts e).2

end Spirv.Entry

end RenderMaterials
