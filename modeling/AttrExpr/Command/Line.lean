import AttrExpr.Command.Run

/-!
# The Command Line

From arguments to what a run prints and how it ends.

The first argument picks the command. A run that is not asked for properly
prints how to ask, and a command that fails prints why; both go to the error
stream and end with status one. Asking for help is no failure, but its text
goes the same way.

## Main definitions

* `Report`: What a run prints, and its status.
* `CommandLine.run`: The report of a run with given arguments.
-/

namespace AttrExpr

/-- What a run leaves behind. A run that fails prints nothing on its output, so
    what is there is the whole of an answer. -/
structure Report where
  status : UInt32
  output : String
  errors : String
deriving DecidableEq, Repr

namespace CommandLine

/-- How the program is used. -/
def usage : String :=
  String.intercalate "\n"
    ["bexpr - evaluate b- attribute expressions",
      "",
      "Usage: bexpr <command> [args]",
      "",
      "Commands:",
      "  parse <expr>                   Print the parsed node tree",
      "  eval <expr> [--let n=<expr>]   Evaluate against the standard functions",
      "  attr <name> <value> [--let ..] Read and evaluate an instrumented attribute",
      "",
      "Set RUST_LOG (e.g. RUST_LOG=bexpr_eval=trace) for debug output.",
      ""]

/-- A run that fails with a line on the error stream. -/
def failed (line : String) : Report := ⟨1, "", line ++ "\n"⟩

/-- The report of a command that was run: its text on one stream or the other,
    never on both. -/
def report : Except CommandError String → Report
  | .ok output => ⟨0, output, ""⟩
  | .error error => failed ("error: " ++ error.text)

/-- The report of a run with the given arguments. What a command needs is
    looked for before its options are read, and `parse` has none, so it pays
    no attention to arguments after the expression. -/
def run : List String → Report
  | [] => ⟨1, "", usage⟩
  | command :: arguments =>
      match command, arguments with
      | "parse", source :: _ => report (Command.parse source)
      | "parse", [] => failed "Usage: bexpr parse <expr>"
      | "eval", source :: options =>
          report ((LetBinding.readOptions options).bind (Command.eval source))
      | "eval", [] => failed "Usage: bexpr eval <expr> [--let name=<expr>]..."
      | "attr", name :: value :: options =>
          report ((LetBinding.readOptions options).bind (Command.attr name value))
      | "attr", _ => failed "Usage: bexpr attr <name> <value> [--let name=<expr>]..."
      | "help", _ => ⟨0, "", usage⟩
      | "--help", _ => ⟨0, "", usage⟩
      | "-h", _ => ⟨0, "", usage⟩
      | other, _ => ⟨1, "", "Unknown command: " ++ other ++ "\n\n" ++ usage⟩

end CommandLine

end AttrExpr
