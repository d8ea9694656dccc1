import RenderMaterials.CommandLine.Help
import RenderMaterials.CommandLine.Watch
import RenderMaterials.System.ConfigFile

/-!
# Running requests

The answer to each request on the files of a tree.  A request ends with status 0 when all is well,
with 1 when something is wrong with the files, and with 2 when it asks for nothing that can be done.
-/

namespace RenderMaterials.CommandLine

namespace Options

/-- The configuration: the one of the file, with the directory of shaders given beside it. -/
def systemConfig (o : Options) (d : Disk) : Except MaterialError SystemConfig := do
  let c ← match o.config? with
    | some path => SystemConfig.load d path
    | none      => pure {}
  return { c with shaderRoot := o.shaderRoot?.getD c.shaderRoot }

end Options

/-- What comes after the first lines. -/
inductive Next where
  | exit (status : UInt8)
  | watch (w : Watch)

/-- The answer to a request. -/
structure Answer where
  lines : List Line := []
  /-- What is said beside the output. -/
  note? : Option String := none
  next  : Next

namespace Answer

/-- An action that is over. -/
def ofOutcome (o : Outcome) : Answer where
  lines := o.lines
  next  := .exit (if o.success then 0 else 1)

/-- Something that kept a request from being carried out. -/
def ofNote (status : UInt8) (note : String) : Answer where
  note? := some note
  next  := .exit status

end Answer

/-- Follows the files of a directory. -/
def watch (tools : Toolchain Counts) (config : SystemConfig) (d : Disk) (assets root : String) :
    Answer :=
  match d.canonical assets with
  | .error f      => .ofNote 1 s!"cannot watch {assets}: {f.message}"
  | .ok directory =>
    match Watch.start tools config ⟨directory⟩ d root with
    | .error o        => .ofOutcome o
    | .ok (lines, w) => { lines, next := .watch w }

/-- Runs an action on a root file. -/
def runAction (tools : Toolchain Counts) (d : Disk) (o : Options) (a : Action) (root : String) :
    Answer :=
  match o.systemConfig d with
  | .error e   => .ofNote 1 e.message
  | .ok config =>
    let src := DirectorySource.toSource ⟨o.assets⟩ d
    match a with
    | .validate => .ofOutcome (validate tools config src root)
    | .build    => .ofOutcome (build tools config src root)
    | .watch    => watch tools config d o.assets root

/-- Answers a request. -/
def answer (tools : Toolchain Counts) (d : Disk) : Request → Answer
  | .run o a root => runAction tools d o a root
  | .help topic   => { lines := topic.lines.map .plain, next := .exit 0 }
  | .version      => { lines := [.plain versionLine], next := .exit 0 }
  | .misuse       => .ofNote 2 s!"try '{programName} --help'"

end RenderMaterials.CommandLine
