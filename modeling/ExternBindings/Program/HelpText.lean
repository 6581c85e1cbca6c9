/-
**Help texts.**

* `HelpTopic.text`: what the program says of itself or of one of its commands.
-/

import ExternBindings.Text.Segments

namespace ExternBindings.Program

/-- What help is asked for. -/
inductive HelpTopic where
  /-- the program, in full -/
  | program
  /-- the program, in short -/
  | summary
  | generate
  | check
  | help
  deriving DecidableEq

/-- Lines as one text. -/
def linesText (lines : List String) : String :=
  Text.join "" (lines.map fun text => text ++ "\n")

/-- The name and version of the program. -/
def versionText : String :=
  linesText ["clrstub 0.1.0"]

/-- What the program says of itself or of one of its commands. -/
def HelpTopic.text : HelpTopic → String
  | program => linesText [
    "clrstub reads assembly listings and writes one Haxe extern module per public type.",
    "",
    "Usage: clrstub [OPTIONS] [COMMAND]",
    "",
    "Commands:",
    "  generate  Translate assemblies into Haxe extern modules",
    "  check     Parse assembly listings and report diagnostics",
    "  help      Print this message or the help of the given subcommand(s)",
    "",
    "Options:",
    "  -v, --verbose",
    "          Log progress to stderr (RUST_LOG takes precedence)",
    "",
    "  -h, --help",
    "          Print help (see a summary with '-h')",
    "",
    "  -V, --version",
    "          Print version"]
  | summary => linesText [
    "Generate Haxe extern declarations from CLR assembly metadata",
    "",
    "Usage: clrstub [OPTIONS] [COMMAND]",
    "",
    "Commands:",
    "  generate  Translate assemblies into Haxe extern modules",
    "  check     Parse assembly listings and report diagnostics",
    "  help      Print this message or the help of the given subcommand(s)",
    "",
    "Options:",
    "  -v, --verbose  Log progress to stderr (RUST_LOG takes precedence)",
    "  -h, --help     Print help (see more with '--help')",
    "  -V, --version  Print version"]
  | generate => linesText [
    "Translate assemblies into Haxe extern modules",
    "",
    "Usage: clrstub generate [OPTIONS] [ASSEMBLY]...",
    "",
    "Arguments:",
    "  [ASSEMBLY]...  Assembly listings to translate",
    "",
    "Options:",
    "  -o, --output <DIR>            Output folder for the generated modules",
    "  -v, --verbose                 Log progress to stderr (RUST_LOG takes precedence)",
    "  -i, --input <DIR>             Directory searched for assemblies; the last match wins",
    "  -p, --package <PACKAGE>       Package replacing `dotnet` for the namespaces of the given assemblies",
    "  -s, --skip-prefix             Skip the `dotnet` prefix for the namespaces of the given assemblies",
    "  -r, --root-package <PACKAGE>  Root package that never receives the `dotnet` prefix",
    "  -h, --help                    Print help"]
  | check => linesText [
    "Parse assembly listings and report diagnostics",
    "",
    "Usage: clrstub check [OPTIONS] <FILE>...",
    "",
    "Arguments:",
    "  <FILE>...  ",
    "",
    "Options:",
    "  -v, --verbose  Log progress to stderr (RUST_LOG takes precedence)",
    "  -h, --help     Print help"]
  | help => linesText [
    "Print this message or the help of the given subcommand(s)",
    "",
    "Usage: clrstub help [COMMAND]...",
    "",
    "Arguments:",
    "  [COMMAND]...  Print help for the subcommand(s)"]

end ExternBindings.Program
