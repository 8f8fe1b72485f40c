import Facade.Command.Request

/-!
This module contains the texts of the help that is given about commands.
-/

namespace Facade.Command

namespace Topic

def usage : Topic → List String
  | all =>
    [
      "Generate Scala wrappers for Java classes from class metadata", "",
      "Usage: wrapgen [OPTIONS] <COMMAND>", "",
      "Commands:",
      "  init      Create a starter wrapgen.toml",
      "  generate  Generate wrapper sources from the metadata inputs",
      "  check     Run the whole batch without writing anything",
      "  help      Print this message or the help of the given subcommand(s)"
    ]
  | init =>
    [
      "Create a starter wrapgen.toml", "",
      "Usage: wrapgen init [OPTIONS] [DIR]", "",
      "Arguments:",
      "  [DIR]  Directory for the new wrapgen.toml [default: .]"
    ]
  | generate =>
    [
      "Generate wrapper sources from the metadata inputs", "",
      "Usage: wrapgen generate [OPTIONS]"
    ]
  | check =>
    [
      "Run the whole batch without writing anything", "",
      "Usage: wrapgen check [OPTIONS]"
    ]
  | help =>
    [
      "Print this message or the help of the given subcommand(s)", "",
      "Usage: wrapgen help [COMMAND]..."
    ]

def settingsLine : String :=
  "  -c, --config <CONFIG>  Path to wrapgen.toml (defaults to ./wrapgen.toml) [default: wrapgen.toml]"

def switches : Topic → List String
  | init =>
    [
      "  -i, --input <INPUTS>   Metadata file or directory to read (repeatable)",
      "      --force            Replace an existing wrapgen.toml"
    ]
  | generate =>
    [
      settingsLine,
      "  -o, --output <OUTPUT>  Output directory (defaults to generator.output in wrapgen.toml)",
      "      --dry-run          Preview generated code without writing to disk",
      "      --visualize        Write pipeline snapshots to <output>/.wrapgen/debug",
      "  -j, --jobs <JOBS>      Worker threads for emission (0 uses every core)",
      "      --allow-partial    Exit successfully even when some classes failed"
    ]
  | check => [settingsLine]
  | _ => []

def common : List String :=
  [
    "  -v, --verbose...       Log more (-v info, -vv debug)",
    "  -h, --help             Print help"
  ]

def text (topic : Topic) : String :=
  let version := if topic = all then ["  -V, --version          Print version"] else []
  "\n".intercalate (topic.usage ++ ["", "Options:"] ++ topic.switches ++ common ++ version)

end Topic

end Facade.Command
