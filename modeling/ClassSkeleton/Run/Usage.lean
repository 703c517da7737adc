import ClassSkeleton.Run.Arguments

namespace ClassSkeleton.Run

/-!
# Help

Every command tells its usage, under the name that the program has been called by.
-/

namespace Topic

def about (program : String) : Topic → String
  | .program => program ++ " - Java skeletons from Doxygen XML"
  | generate => "Generate Java sources from Doxygen XML files"
  | rules => "Print the effective rule tables as JSON"
  | help => "Print this message or the help of the given subcommand(s)"

/-- What follows the name of the program. -/
def synopsis : Topic → String
  | program => "<COMMAND>"
  | generate => "generate [OPTIONS] --namespace <NAMESPACE> [INPUTS]..."
  | rules => "rules [OPTIONS]"
  | help => "help [COMMAND]..."

def details : Topic → List String
  | program => [
    "Commands:",
    "  generate  Generate Java sources from Doxygen XML files",
    "  rules     Print the effective rule tables as JSON",
    "  help      Print this message or the help of the given subcommand(s)",
    "",
    "Options:",
    "  -h, --help  Print help"]
  | generate => [
    "Arguments:",
    "  [INPUTS]...  XML files or directories containing them",
    "",
    "Options:",
    "  -n, --namespace <NAMESPACE>  Namespace prefix stripped from class names (e.g. QuantLib)",
    "  -O, --output <OUTPUT>        Output directory [default: .]",
    "  -v, --verbose                List each input file as it is processed",
    "      --rules <RULES>          JSON file overriding rule tables",
    "      --methods-first          Emit method groups before field groups",
    "      --extension <EXTENSION>  Extension of generated files [default: java]",
    "      --stdin                  Read one document from stdin and print the result",
    "      --json                   With --stdin, print the result as JSON",
    "  -h, --help                   Print help"]
  | rules => [
    "Options:",
    "      --rules <RULES>  JSON file overriding rule tables",
    "  -h, --help           Print help"]
  | help => [
    "Arguments:",
    "  [COMMAND]...  Print help for the subcommand(s)"]

def text (t : Topic) (program : String) : String :=
  String.join ((t.about program :: "" :: ("Usage: " ++ program ++ " " ++ t.synopsis) :: "" ::
    t.details).map (· ++ "\n"))

end Topic

end ClassSkeleton.Run
