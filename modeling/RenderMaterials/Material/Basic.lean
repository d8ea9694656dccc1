import RenderMaterials.Error
import RenderMaterials.Material.Parameter
import RenderMaterials.Shader.Binding

/-!
# Materials

What a document says about a material, once and for all: its passes, and for each pass the shaders
of its stages, the state blocks it names, its parameters and the bindings it declares itself.
-/

namespace RenderMaterials

/-- A shader of one stage. -/
structure ShaderReference where
  stage   : Stage
  id      : String
  file    : String
  entry   : String
  profile : String
  /-- Entries `NAME` and `NAME=VALUE`, sorted, none twice. -/
  defines : List String
  deriving DecidableEq, Repr

namespace ShaderReference

/-- The name of what a compiler makes of these four. -/
def identityOf (file entry profile : String) (defines : List String) : String :=
  let joined := ",".intercalate defines
  if defines = [] then s!"{file}#{entry}@{profile}" else s!"{file}#{entry}@{profile}[{joined}]"

/-- The name of the compiled shader. -/
def identity (s : ShaderReference) : String := identityOf s.file s.entry s.profile s.defines

end ShaderReference

/-- The state blocks that a pass names. -/
structure StateReferences where
  rasterizer   : Option String := none
  depthStencil : Option String := none
  blend        : Option String := none
  renderTarget : Option String := none
  deriving DecidableEq, Repr

namespace StateReferences

/-- The names of one, and of another where the first has none. -/
def orElse (a b : StateReferences) : StateReferences where
  rasterizer   := a.rasterizer <|> b.rasterizer
  depthStencil := a.depthStencil <|> b.depthStencil
  blend        := a.blend <|> b.blend
  renderTarget := a.renderTarget <|> b.renderTarget

end StateReferences

/-- How vertices form primitives. -/
inductive Topology where
  | point | line | triangle | patch
  deriving DecidableEq, Repr, Inhabited

namespace Topology

def name : Topology → String
  | point    => "Point"
  | line     => "Line"
  | triangle => "Triangle"
  | patch    => "Patch"

/-- The topology of a name in any letter case. -/
def ofName? (s : String) : Option Topology :=
  match s.toLower with
  | "point"    => some point
  | "line"     => some line
  | "triangle" => some triangle
  | "patch"    => some patch
  | _          => none

end Topology

/-- One pass of a material. -/
structure Pass where
  name?      : Option String
  shaders    : List ShaderReference
  states     : StateReferences
  parameters : List Parameter
  topology   : Topology
  /-- The bindings that the pass declares itself. -/
  bindings   : List Binding
  deriving DecidableEq, Repr

namespace Pass

/-- The stages that a pass has shaders for. -/
def stages (p : Pass) : StageSet := .ofList (p.shaders.map (·.stage))

/-- Whether a pass has shaders, and only compute shaders. -/
def isCompute (p : Pass) : Bool := p.shaders ≠ [] && p.shaders.all (·.stage = .compute)

/-- How messages name passes without a name. -/
def defaultLabel : String := "<default>"

/-- The name of a pass in messages. -/
def label (p : Pass) : String := p.name?.getD defaultLabel

/-- The first parameter of a name. -/
def parameter? (p : Pass) (name : String) : Option Parameter :=
  p.parameters.find? (·.name = name)

end Pass

/-- A material. -/
structure Material where
  id            : String
  passes        : List Pass
  vertexFormat? : Option String
  enabled       : Bool
  versionHash   : String
  deriving DecidableEq, Repr

namespace Material

/-- The first pass of a name. -/
def pass? (m : Material) (name : String) : Option Pass :=
  m.passes.find? (fun p => p.name? = some name)

/-- Whether there is a pass of a name. -/
def hasPass (m : Material) (name : String) : Bool := (m.pass? name).isSome

/-- The names of the passes that have one. -/
def passNames (m : Material) : List String := m.passes.filterMap (·.name?)

/-- The pass that a request selects: the one of a name, or the only one. -/
def resolvePass (m : Material) : Option String → Except MaterialError Pass
  | some name =>
    match m.pass? name with
    | some p => .ok p
    | none   => .error (.unknownPass m.id name)
  | none =>
    match m.passes with
    | [p] => .ok p
    | []  => .error (.unknownPass m.id Pass.defaultLabel)
    | ps  => .error (.ambiguousPass m.id s!"{ps.length} passes defined and no pass name given")

/-- The shaders of all passes, in order. -/
def shaders (m : Material) : List ShaderReference := m.passes.flatMap (·.shaders)

end Material

/-- A render pass. -/
structure RenderPass where
  name          : String
  queue         : String
  renderTarget? : Option String
  deriving DecidableEq, Repr

end RenderMaterials
