import RenderMaterials.CommandLine.Arguments
import RenderMaterials.Version

/-!
# Help

The texts that explain the command line, line by line.
-/

namespace RenderMaterials.CommandLine

/-- The name that the program is called by. -/
def programName : String := "kilnc"

/-- The program with its version. -/
def versionLine : String := s!"{programName} {version}"

/-- What an action does. -/
def Action.summary : Action → String
  | validate => "Load and validate a root document"
  | build    => "Build every material pass against its render pass"
  | watch    => "Build, then rebuild affected materials whenever files change"

/-- What the word `help` does. -/
def helpSummary : String := "Print this message or the help of the given subcommand(s)"

/-- The options that stand on either side of a command's name. -/
def optionLines : List String := [
  "Options:",
  "      --assets <ASSETS>            Directory document and shader paths are relative to [default: .]",
  "      --config <CONFIG>            Material system config file (TOML)",
  "      --shader-root <SHADER_ROOT>  Shader directory inside the assets directory; overrides the",
  "                                   config",
  "  -v, --verbose...                 Increase log verbosity (-v debug, -vv trace)",
  "  -h, --help                       Print help"]

/-- The lines of help. -/
def Topic.lines : Topic → List String
  | program  =>
    ["Kiln material compiler", "", s!"Usage: {programName} [OPTIONS] <COMMAND>", "", "Commands:",
      "  validate  " ++ Action.validate.summary, "  build     " ++ Action.build.summary,
      "  watch     " ++ Action.watch.summary, "  help      " ++ helpSummary, ""]
    ++ optionLines ++ ["  -V, --version                    Print version"]
  | action a =>
    [a.summary, "", s!"Usage: {programName} {a.name} [OPTIONS] <ROOT>", "", "Arguments:",
      "  <ROOT>  Root document, relative to the assets directory", ""]
    ++ optionLines
  | help     =>
    [helpSummary, "", s!"Usage: {programName} help [COMMAND]...", "", "Arguments:",
      "  [COMMAND]...  Print help for the subcommand(s)"]

end RenderMaterials.CommandLine
