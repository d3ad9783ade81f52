/-
  The help texts of the command.
-/

namespace Funge.Command

/-- The help of the command as a whole, for the name it was called by. -/
def usage (program : String) : String :=
  "Usage:\n" ++
  "  " ++ program ++
    " run [OPTIONS] <PATH>           # Run a Befunge program loaded from PATH\n" ++
  "  " ++ program ++
    " run [OPTIONS] --code \"<code>\"  # Run Befunge code given on the command line\n" ++
  "\n" ++
  "Run \"" ++ program ++ " <subcommand> --help\" for more info.\n" ++
  "\n"

/-- The help of `run`. -/
def runUsage (program : String) : String :=
  "Usage:\n" ++
  "  " ++ program ++ " run [OPTIONS] <PATH>\n" ++
  "  " ++ program ++ " run [OPTIONS] --code \"<code>\"\n" ++
  "\n" ++
  "Options:\n" ++
  "  --code,  -c <CODE>  Run CODE instead of loading PATH (use real newlines between rows)\n" ++
  "  --echo,  -e         Print the program source before executing it\n" ++
  "  --max-steps <N>     Abort after N instructions (fallback BEFUNGE_MAX_STEPS)\n" ++
  "  --seed <N>          Seed the random direction instruction \x60?\x60 (fallback BEFUNGE_SEED)\n" ++
  "  --help,  -h         Show this help\n" ++
  "\n" ++
  "Notes:\n" ++
  "- \x60&\x60 reads a line from stdin and parses it as an integer; \x60~\x60 reads a line and\n" ++
  "  takes its first character. Running out of input is an error.\n" ++
  "- Popping an empty stack, dividing by zero and leaving the grid are errors.\n" ++
  "- Defaults can be set in befunge.toml in your config directory (or the file\n" ++
  "  named by BEFUNGE_CONFIG).\n" ++
  "\n" ++
  "Examples:\n" ++
  "- Run a program from a file:\n" ++
  "    " ++ program ++ " run ./hello.bf\n" ++
  "- Feed numbers to \x60&\x60 from a file:\n" ++
  "    " ++ program ++ " run ./sum.bf < numbers.txt\n" ++
  "\n"

end Funge.Command
