import GraphLogic.CommandLine

/-!
# The program

Reads the arguments, the configuration file and the lines of the input, and prints what
`CommandLine` and `Session` answer.
-/

namespace GraphLogic.CommandLine

/-- What the system says about a failed operation. -/
def systemReason : IO.Error → String
  | .alreadyExists _ code details | .interrupted _ code details
  | .noFileOrDirectory _ code details
  | .invalidArgument _ code details | .permissionDenied _ code details
  | .resourceExhausted _ code details
  | .inappropriateType _ code details | .noSuchThing _ code details => reason code details
  | .otherError code details | .resourceBusy code details | .resourceVanished code details
  | .unsupportedOperation code details | .hardwareFault code details
  | .unsatisfiedConstraints code details | .illegalOperation code details
  | .protocolError code details | .timeExpired code details => reason code details
  | e => toString e
where
  /-- Some operations give the code of the error negated. -/
  reason (code : UInt32) (details : String) : String :=
    details.capitalize ++ " (os error " ++ toString (min code (0 - code)) ++ ")"

/-- The text of a file, or why it cannot be read. -/
def readText (path : String) : IO (Except String String) := do
  try
    match String.fromUTF8? (← IO.FS.readBinFile path) with
    | some text => return .ok text
    | none => return .error "stream did not contain valid UTF-8"
  catch e => return .error (systemReason e)

def emit (output : Output) : IO Unit := do
  IO.print output.out
  IO.eprint output.err

/-- Answers the lines of the input until one of them ends the conversation. -/
partial def converse (s : Session) : IO Unit := do
  let line ← (← IO.getStdin).getLine
  if line.isEmpty then return
  match s.answer? line with
  | some output =>
    emit output
    converse s
  | none => return

end GraphLogic.CommandLine

open GraphLogic CommandLine in
def main (arguments : List String) : IO UInt32 := do
  match ← Course.ofArguments readText arguments with
  | .finish code output =>
    emit output
    return code.toUInt32
  | .converse s =>
    IO.print s.greeting
    converse s
    return 0
