import GraphLogic.CommandLine.Usage
import GraphLogic.Config

/-!
# The command line

With a formula the program checks it and ends; its exit code says whether the formula was
accepted. Without one it converses: it answers the lines of its input.
-/

namespace GraphLogic.CommandLine

/-! ## Failures -/

/-- Why the program cannot start, with the causes behind it. -/
structure StartError where
  summary : String
  causes : List String
  deriving DecidableEq, Repr

namespace StartError

/-- The text with a margin in front of its lines from the second on. -/
def hang (margin : String) (text : String) : String :=
  ("\n" ++ margin).intercalate (text.splitOn "\n")

def message (e : StartError) : String :=
  "Error: " ++ e.summary ++ "\n\nCaused by:\n" ++
    match e.causes with
    | [cause] => "    " ++ hang "    " cause ++ "\n"
    | causes => String.join <| causes.zipIdx.map fun (cause, i) =>
        "    " ++ toString i ++ ": " ++ hang "       " cause ++ "\n"

/-- The error of a configuration that cannot be loaded, or of a graph that cannot be built. -/
def ofConfigError (path : String) (e : ConfigError) : StartError :=
  match e with
  | .unreadable _ reason => ⟨"loading " ++ path, [e.message, reason]⟩
  | .malformed | .shape _ => ⟨"loading " ++ path, [e.message]⟩
  | .graph g => ⟨"building graph", [e.message, g.message]⟩

end StartError

/-! ## Starting -/

/-- The session of a configuration file, given its text or the reason why it cannot be read. -/
def session (o : Options) (contents : Except String String) : Except ConfigError Session := do
  let config ← Config.load o.config contents
  let graph ← config.build.mapError .graph
  return { graph, color := config.color && o.color }

def helpText : String :=
  "Parse, validate and model-check MSO formulas on a finite graph\n\n" ++
  "Usage: " ++ Session.programName ++ " [OPTIONS] <CONFIG> [FORMULA]\n\n" ++
  "Arguments:\n" ++
  "  <CONFIG>   TOML file describing the graph\n" ++
  "  [FORMULA]  Formula to check; starts a REPL when omitted\n\n" ++
  "Options:\n" ++
  "      --log-level <LOG_LEVEL>  Set the log level [default: warn] " ++
    "[possible values: trace, debug, info, warn, error]\n" ++
  "      --no-color               Disable colored diagnostics\n" ++
  "  -h, --help                   Print help\n" ++
  "  -V, --version                Print version\n"

/-- What the program does: it ends with an exit code, or it converses and then ends with 0. -/
inductive Course
  | finish (code : Nat) (output : Output)
  | converse (s : Session)

/-- What the program does with its arguments, where `contents` is the text of the configuration
file that they name. -/
def Course.ofOptions (o : Options) (contents : Except String String) : Course :=
  match session o contents with
  | .error e => finish 1 { err := (StartError.ofConfigError o.config e).message }
  | .ok s =>
    match o.formula with
    | some formula =>
      let (accepted, output) := s.check formula
      finish (if accepted then 0 else 1) output
    | none => converse s

/-! ## Whole runs -/

/-- The lines of an input, without their ends. -/
def inputLines (input : String) : List String :=
  let lines := input.splitOn "\n"
  if lines.getLast? = some "" then lines.dropLast else lines

/-- What the program does with its arguments, where `read` gives the text of a file or the reason
why it cannot be read. -/
def Course.ofArguments {m : Type → Type} [Monad m] (read : String → m (Except String String))
    (arguments : List String) : m Course :=
  match Demand.ofArguments arguments with
  | .version =>
    return finish 0 { out := Session.programName ++ " " ++ Session.version ++ "\n" }
  | .help => return finish 0 { out := helpText }
  | .usage e => return finish 2 { err := e.message }
  | .start o => return ofOptions o (← read o.config)

/-- The exit code and the output of a run on the files that `read` gives. -/
def run (read : String → Except String String) (arguments : List String) (input : String) :
    Nat × Output :=
  match Id.run (Course.ofArguments (fun path => pure (read path)) arguments) with
  | .finish code output => (code, output)
  | .converse s => (0, ({ out := s.greeting } : Output) ++ s.converse (inputLines input))

end GraphLogic.CommandLine
