import RenderMaterials.CommandLine.Line
import RenderMaterials.Reflection.Usage
import RenderMaterials.Shader.Compile

/-!
# Validating and building

The actions that end by themselves, each as what it says about a root file and whether all is well.
-/

namespace RenderMaterials.CommandLine

/-- The systems of the command line build with no graphics interface. -/
abbrev System := MaterialSystem Counts

/-- The tools of the command line, with a translator. -/
def tools (t : Translator) : Toolchain Counts where
  compile := t.compiler
  reflect := t.reflector
  backend := .simulated

/-- Loads a root file. -/
def loadSystem (tools : Toolchain Counts) (config : SystemConfig) (src : Source) (root : String) :
    Except LoadFailure System :=
  MaterialSystem.load tools {} config src root

/-- What an action says, and whether all is well. -/
structure Outcome where
  lines   : List Line
  success : Bool

/-- A load that failed. -/
def failedToLoad (root : String) (f : LoadFailure) : Outcome :=
  ⟨.failedToLoad root :: Line.ofFailure f, false⟩

/-- Checks the document of a root file, and loads it.  An error of the checks is no success even
when the load passes over it. -/
def validate (tools : Toolchain Counts) (config : SystemConfig) (src : Source) (root : String) :
    Outcome :=
  match Document.load src root with
  | .error f => failedToLoad root f
  | .ok d    =>
    let report := d.check
    match loadSystem tools config src root with
    | .error f => ⟨Line.ofReport report ++ .invalid root :: Line.ofFailure f, false⟩
    | .ok s    => ⟨Line.ofReport report ++ [.ofCatalog root s.catalog], report.errors = []⟩

/-- Builds all passes of the materials of a root file; each of them has to have a pipeline. -/
def build (tools : Toolchain Counts) (config : SystemConfig) (src : Source) (root : String) :
    Outcome :=
  match loadSystem tools config src root with
  | .error f => failedToLoad root f
  | .ok s    =>
    let (results, s) := s.buildAll src
    ⟨.building root tools.backend.name :: results.map .pass ++ Line.ofCounters s,
      PassResult.failures results = 0⟩

end RenderMaterials.CommandLine
