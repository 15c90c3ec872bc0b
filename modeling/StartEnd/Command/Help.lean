/-!
# Texts about the command

The short and the long description of the command, its version, and the line that
shows how it is used.
-/

namespace StartEnd.Command

/-- How the command is used. -/
def usage : String := "Usage: startlang [OPTIONS] <FILE>"

/-- The version of the command. -/
def versionText : String := "startlang 0.1.0\n"

/-- The description on one line for each option. -/
def shortHelpText : String :=
  "Parser for Start/End programs\n\n" ++ usage ++ "\n\n" ++
  "Arguments:\n" ++
  "  <FILE>  Source file to parse\n\n" ++
  "Options:\n" ++
  "      --emit <EMIT>  What to print on success [default: tree] " ++
  "[possible values: tree, json, source, reductions]\n" ++
  "  -v, --verbose...   Increase logging verbosity (-v: info, -vv: debug, -vvv+: trace)\n" ++
  "  -h, --help         Print help (see more with '--help')\n" ++
  "  -V, --version      Print version\n"

/-- The description with the values of each option. -/
def longHelpText : String :=
  "Parser for Start/End programs\n\n" ++ usage ++ "\n\n" ++
  "Arguments:\n" ++
  "  <FILE>\n" ++
  "          Source file to parse\n\n" ++
  "Options:\n" ++
  "      --emit <EMIT>\n" ++
  "          What to print on success\n\n" ++
  "          Possible values:\n" ++
  "          - tree:       Debug view of the tree\n" ++
  "          - json:       Tree as JSON\n" ++
  "          - source:     Canonical source text\n" ++
  "          - reductions: Recognized productions, in completion order\n" ++
  "          \n" ++
  "          [default: tree]\n\n" ++
  "  -v, --verbose...\n" ++
  "          Increase logging verbosity (-v: info, -vv: debug, -vvv+: trace)\n\n" ++
  "  -h, --help\n" ++
  "          Print help (see a summary with '-h')\n\n" ++
  "  -V, --version\n" ++
  "          Print version\n"

end StartEnd.Command
