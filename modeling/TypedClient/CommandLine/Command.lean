import TypedClient.CommandLine.Generate

/-!
# The command line as a whole

Help and the version are given when they are asked for. Arguments that make no command end
with code 2.
-/

namespace TypedClient.CommandLine

def usage : String :=
  String.join [
    "Usage: typeweave generate [OPTIONS] --metadata <FILE>\n",
    "\n",
    "Options:\n",
    "  --metadata <FILE>  Metadata document (JSON)\n",
    "  --config <FILE>    Configuration (TOML)\n",
    "  --docs <FILE>      Documentation map (JSON)\n",
    "  --out-dir <DIR>    Directory the client files are written to [default: .]\n",
    "  --flavor <FLAVOR>  Client to write, fetch or axios; may be repeated\n",
    "  --check            Compare the files instead of writing them\n",
    "  --json             Report the run as JSON\n"]

def versionText : String :=
  "typeweave 0.1.0\n"

/-- Runs the command that the arguments make. -/
def run {m : Type → Type} [Monad m] [FileSystem m] (arguments : List String) : m Ending :=
  match Invocation.ofArguments arguments with
  | .help => return { code := 0, output := usage }
  | .version => return { code := 0, output := versionText }
  | .generate options => options.run
  | .void => return { code := 2, messages := usage }

end TypedClient.CommandLine
