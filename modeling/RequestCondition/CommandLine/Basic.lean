import RequestCondition.CommandLine.Arguments

/-!
# Running commands

`Command.run` carries out a command: given the file system and the bytes of the standard input, it
says what to write and how to exit.  It is a function, so the program around it only has to fetch
and to deliver.

A check reads its variables from the standard input unless they are given as an option or only the
syntax is checked; an input of blanks alone gives none.
-/

set_option autoImplicit false

namespace RequestCondition

/-- What a run leaves behind. -/
structure RunReport where
  exitCode : UInt32
  output : String
  errors : String
deriving DecidableEq

namespace HelpTopic

def text : HelpTopic → String
  | program => "reqexpr - evaluate request conditions and string templates

Usage: reqexpr <COMMAND>

Commands:
  check  Validate and evaluate an expression
  help   Print this message or the help of the given subcommand(s)

Options:
  -h, --help     Print help
  -V, --version  Print version
"
  | check => "Validate and evaluate an expression

Usage: reqexpr check [OPTIONS] <EXPRESSION>

Arguments:
  <EXPRESSION>  The expression to evaluate

Options:
  -v, --vars <VARS>  JSON object of variables (reads from stdin if not provided)
  -t, --template     Treat the expression as a string template
  -i, --icase        Match regex literals case-insensitively
      --strict       Fail on variables missing from the input
  -p, --pretty       Pretty-print the output
      --syntax-only  Only validate syntax, don't evaluate
  -h, --help         Print help
"
  | help => "Print this message or the help of the given subcommand(s)

Usage: reqexpr help [COMMAND]...

Arguments:
  [COMMAND]...  Print help for the subcommand(s)
"

end HelpTopic

namespace RunReport

/-- A run that succeeds and writes a text. -/
def success (output : String) : RunReport := ⟨0, output, ""⟩

/-- The run that arguments which make no command lead to. -/
def misuse (e : UsageError) : RunReport := ⟨2, "", "error: " ++ e.message ++ "\n"⟩

/-- The run of a check with a result. -/
def ofCheck (pretty : Bool) : Except CheckError CheckResult → RunReport
  | .ok .syntaxValid => success "Syntax is valid\n"
  | .ok (.success report) => success ((if pretty then report.pretty else report.compact) ++ "\n")
  | .error e => ⟨1, "", e.display ++ "\n"⟩

end RunReport

namespace CheckOptions

/-- Whether the variables are to be read from the standard input. -/
def readsInput (o : CheckOptions) : Bool := o.vars.isNone && !o.syntaxOnly

/-- The options with the variables that the standard input gives. -/
def withInput (o : CheckOptions) (bytes : List UInt8) : Except CheckError CheckOptions :=
  if o.readsInput then
    match textOfBytes? bytes with
    | none => .error (.input .notUtf8)
    | some s =>
      .ok { o with vars := if trimBlanks s.toList = [] then none else some s }
  else .ok o

end CheckOptions

namespace Command

/-- Whether the command looks at the standard input. -/
def readsInput : Command → Bool
  | check options _ => options.readsInput
  | _ => false

/-- Carries out a command. -/
def run (fs : FileSystem) (input : List UInt8) : Command → RunReport
  | check options pretty =>
    .ofCheck pretty (do (← options.withInput input).check fs)
  | help topic => .success topic.text
  | version => .success "reqexpr 0.1.0\n"

/-- The paths that the command asks about. -/
def paths (fs : FileSystem) (input : List UInt8) : Command → List String
  | check options _ =>
    match options.withInput input with
    | .ok o => o.paths fs
    | .error _ => []
  | _ => []

end Command

/-- Runs the program: arguments that make no command are reported. -/
def runArguments (fs : FileSystem) (arguments : List String) (input : List UInt8) : RunReport :=
  match Command.ofArguments arguments with
  | .ok command => command.run fs input
  | .error e => .misuse e

end RequestCondition
