import GraphLogic.Diagnostic

/-!
# Inks

The colours of a report, as the escape sequences of a terminal.
-/

namespace GraphLogic

inductive Ink
  | plain
  /-- The frame of a report. -/
  | frame
  /-- The margin of the rows that show no source line. -/
  | margin
  /-- Source text that a report does not speak of. -/
  | source
  | severity (s : Severity)
  deriving DecidableEq, Repr

/-- The parameters of the sequence that chooses the ink. -/
def Ink.parameters? : Ink → Option String
  | plain => none
  | frame => some "38;5;246"
  | margin => some "38;5;240"
  | source => some "38;5;249"
  | severity .error => some "31"
  | severity .warning => some "33"

/-- A text in one ink. -/
structure Inked where
  ink : Ink
  text : String
  deriving DecidableEq, Repr

/-- The text with its escape sequences, or without where there is no colour. -/
def Inked.render (color : Bool) (x : Inked) : String :=
  match color, x.ink.parameters? with
  | true, some parameters => "\x1b[" ++ parameters ++ "m" ++ x.text ++ "\x1b[0m"
  | _, _ => x.text

end GraphLogic
