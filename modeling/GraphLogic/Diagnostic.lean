import GraphLogic.Text.Span

/-!
# Diagnostics

A diagnostic is a message about a place in a source text.
-/

namespace GraphLogic

inductive Severity
  | error
  | warning
  deriving DecidableEq, Repr

def Severity.word : Severity → String
  | error => "error"
  | warning => "warning"

structure Diagnostic where
  severity : Severity
  message : String
  span : Span
  deriving DecidableEq, Repr

namespace Diagnostic

def isError (d : Diagnostic) : Bool := d.severity == .error

/-- The diagnostic in one line, as in `error at 3..4: Variable 'y' does not exist`. -/
protected def toString (d : Diagnostic) : String :=
  d.severity.word ++ " at " ++ d.span.toString ++ ": " ++ d.message

end Diagnostic

end GraphLogic
