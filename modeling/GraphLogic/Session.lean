import GraphLogic.Pipeline
import GraphLogic.Report

/-!
# Sessions

A session checks formulas on one graph. It answers single formulas, or the lines of a
conversation, which hold formulas and commands.
-/

namespace GraphLogic

structure Session where
  graph : Graph
  /-- Whether reports are coloured. -/
  color : Bool

/-- What is written to the two outputs. -/
structure Output where
  out : String := ""
  err : String := ""
  deriving DecidableEq, Repr

namespace Output

instance : Append Output := ⟨fun a b => ⟨a.out ++ b.out, a.err ++ b.err⟩⟩

end Output

namespace Session

/-- The name and the version of the program. -/
def programName : String := "msocheck"

def version : String := "0.1.0"

/-! ## Formulas -/

/-- Checks a formula. It is accepted if it has a verdict; else the reports say why not. -/
def check (s : Session) (source : String) : Bool × Output :=
  match run source s.graph with
  | .error failure =>
    match failure.diagnostic? with
    | some d => (false, { err := report source [d] s.color })
    | none => (false, { err := "Error: " ++ failure.message ++ "\n" })
  | .ok outcome =>
    let err := report source outcome.analysis.diagnostics s.color
    match outcome.result with
    | some holds => (true, { out := toString holds ++ "\n", err })
    | none => (false, { err })

/-! ## Conversations -/

/-- What a line of a conversation asks for. -/
inductive Request
  | nothing
  | quit
  | help
  | graph
  | unknown (command : String)
  | check (source : String)
  deriving DecidableEq, Repr

/-- The request of a line, which does not count blanks at its ends. -/
def Request.ofLine (line : String) : Request :=
  let text := trim line.toList
  match String.ofList text with
  | "" => nothing
  | ":quit" | ":q" => quit
  | ":help" | ":h" => help
  | ":graph" => graph
  | request => if text.head? = some ':' then unknown request else check request

def greeting (s : Session) : String :=
  programName ++ " v" ++ version ++ " - MSO model checker\n" ++
  "Graph with " ++ toString s.graph.vertexCount ++ " vertices and " ++
    toString s.graph.edgeCount ++ " edges\n" ++
  "Type :help for help, :quit to exit\n\n"

def helpText : String :=
  "Enter a formula to check it against the graph, for example:\n" ++
  "  \\forall x \\exists y E(x, y)\n" ++
  "  ∃X ∀x∀y (E(x,y) → (X(x) ↔ ¬X(y)))\n" ++
  "\n" ++
  "Commands:\n" ++
  "  :help   Show this help\n" ++
  "  :graph  Show the loaded graph\n" ++
  "  :quit   Exit\n"

/-- The answer to a line, or nothing where the line ends the conversation. -/
def answer? (s : Session) (line : String) : Option Output :=
  match Request.ofLine line with
  | .nothing => some {}
  | .quit => none
  | .help => some { out := helpText }
  | .graph => some { out := s.graph.toString ++ "\n" }
  | .unknown command =>
    some { err :=
      "Error: Unknown command '" ++ command ++ "'\nType :help for available commands\n" }
  | .check source => some (s.check source).2

/-- The answers to the lines of a conversation, up to the one that ends it. -/
def converse (s : Session) : List String → Output
  | [] => {}
  | line :: rest =>
    match s.answer? line with
    | some output => output ++ s.converse rest
    | none => {}

end Session

end GraphLogic
