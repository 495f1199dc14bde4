import GraphLogic.Session
import GraphLogic.Text.Similarity

/-!
# Arguments of the command line

The program takes a configuration, a formula and options. The arguments are read from left to
right; the first that does not fit ends the reading with an error of usage.
-/

namespace GraphLogic.CommandLine

/-- What can be given on the command line. -/
inductive Parameter
  | config
  | formula
  | logLevel
  | noColor
  | help
  | version
  deriving DecidableEq, Repr

namespace Parameter

/-- The names of the options. -/
def options : List (String × Parameter) :=
  [("log-level", logLevel), ("no-color", noColor), ("help", help), ("version", version)]

/-- The parameter as messages name it. -/
def name : Parameter → String
  | config => "CONFIG"
  | formula => "FORMULA"
  | logLevel => "--log-level <LOG_LEVEL>"
  | noColor => "--no-color"
  | help => "--help"
  | version => "--version"

def isOption (p : Parameter) : Bool := p != config && p != formula

/-- Whether the parameter is one of a check, and not a question about the program. -/
def isSetting (p : Parameter) : Bool := p != help && p != version

/-- The parameter as messages show it. -/
def shown (p : Parameter) : String := if p.isOption then p.name else "<" ++ p.name ++ ">"

/-- The values that a parameter can have, if they are fixed. -/
def values : Parameter → List String
  | logLevel => ["trace", "debug", "info", "warn", "error"]
  | _ => []

end Parameter

/-! ## Errors of usage -/

inductive UsageError
  | missingConfig (used : List Parameter)
  /-- An argument that is not known, with a parameter of a similar name or the advice to mark it as
  a value. -/
  | unexpected (argument : String) (similar : Option Parameter) (advise : Bool)
      (used : List Parameter)
  /-- A value for an option that takes none, with the parameters in use before it. -/
  | unexpectedValue (value : String) (option : Parameter) (used : List Parameter)
  | missingValue (p : Parameter)
  | invalidValue (value : String) (p : Parameter)
  | repeated (option : Parameter)
  deriving DecidableEq, Repr

namespace UsageError

/-- The line on how the program is used with some options and arguments. -/
def usageLine (options : List Parameter) (arguments : String) : String :=
  "Usage: " ++ Session.programName ++ String.join (options.map fun p => " " ++ p.name) ++ " " ++
    arguments

/-- The arguments of a check. -/
def arguments : String := "<CONFIG> [FORMULA]"

/-- The parameters of a check, each of them as good as the others. -/
def alternatives : String :=
  let settings : List Parameter := [.config, .formula, .logLevel, .noColor]
  "<" ++ "|".intercalate (settings.map (·.name)) ++ ">"

/-- The line on how the program is used, for a message about an option while some parameters are in
use. -/
def usage (used : List Parameter) : String :=
  if used.isEmpty then usageLine [] ("[OPTIONS] " ++ arguments)
  else if used.any (·.isSetting) then usageLine (used.filter (!·.isSetting)) alternatives
  else usageLine used arguments

/-- The line on the values that a parameter can have. -/
def valueList (p : Parameter) : String :=
  if p.values.isEmpty then "" else "\n  [possible values: " ++ ", ".intercalate p.values ++ "]"

def body : UsageError → String
  | missingConfig used =>
    "the following required arguments were not provided:\n  <CONFIG>\n\n" ++
      usageLine (used.filter (·.isOption)) arguments
  | unexpected argument similar advise used =>
    "unexpected argument '" ++ argument ++ "' found\n\n" ++
      (match similar with
        | some p =>
          "  tip: a similar argument exists: '" ++ (p.name.takeWhile (· != ' ')).toString ++ "'\n\n"
        | none => "") ++
      (if advise then
        "  tip: to pass '" ++ argument ++ "' as a value, use '-- " ++ argument ++ "'\n\n"
      else "") ++ usage used
  | unexpectedValue value option used =>
    "unexpected value '" ++ value ++ "' for '" ++ option.shown ++
      "' found; no more were expected\n\n" ++
      if used.isEmpty then usageLine [option] arguments
      else usageLine ([option].filter (!·.isSetting)) alternatives
  | missingValue p =>
    "a value is required for '" ++ p.shown ++ "' but none was supplied" ++ valueList p
  | invalidValue value p =>
    "invalid value '" ++ value ++ "' for '" ++ p.shown ++ "'" ++ valueList p ++
      match Similarity.best? id p.values value with
      | some v => "\n\n  tip: a similar value exists: '" ++ v ++ "'"
      | none => ""
  | repeated option => "the argument '" ++ option.shown ++ "' cannot be used multiple times\n\n" ++
      usage []

def message (e : UsageError) : String :=
  "error: " ++ e.body ++ "\n\nFor more information, try '--help'.\n"

end UsageError

/-! ## Reading arguments -/

structure Options where
  config : String
  formula : Option String := none
  /-- Whether reports can be coloured. -/
  color : Bool := true
  deriving DecidableEq, Repr

/-- What the arguments ask for. -/
inductive Demand
  | version
  | help
  | usage (e : UsageError)
  | start (o : Options)
  deriving DecidableEq, Repr

/-- How far the reading of arguments has come. -/
structure Progress where
  /-- The parameters in use, in the order in which they were given. -/
  used : List Parameter := []
  config : Option String := none
  formula : Option String := none
  /-- The parameter given last, with its value if that was given; it is checked when the next one
  comes. -/
  pending : Option (Parameter × Option String) := none
  /-- Whether a configuration and a formula were given. -/
  positions : Nat := 0
  deriving DecidableEq, Repr

namespace Progress

/-- Checks the pending parameter, and says what is wrong with it. -/
def settle (p : Progress) : Progress × Option UsageError :=
  let q := { p with pending := none }
  match p.pending with
  | none => (q, none)
  | some (x, none) => (q, some (.missingValue x))
  | some (x, some v) =>
    if q.used.contains x then (q, some (.repeated x))
    else
      let q := { q with used := q.used ++ [x] }
      match x with
      | .config => if v.isEmpty then (q, some (.missingValue x)) else ({ q with config := v }, none)
      | .formula => ({ q with formula := v }, none)
      | _ =>
        if x.values.contains v then (q, none)
        else if v.isEmpty then (q, some (.missingValue x))
        else (q, some (.invalidValue v x))

/-- Goes on with `next` if nothing is wrong with the pending parameter. -/
def settled (p : Progress) (next : Progress → Demand) : Demand :=
  match p.settle with
  | (_, some e) => .usage e
  | (q, none) => next q

/-- What the arguments ask for after the last one. -/
def finish (p : Progress) : Demand :=
  p.settled fun q =>
    match q.config with
    | some config => .start { config, formula := q.formula, color := !q.used.contains .noColor }
    | none => .usage (.missingConfig q.used)

/-- The error of an option that is not known. -/
def unknownOption (p : Progress) (name : String) : UsageError :=
  let used := p.settle.1.used
  match Similarity.best? (·.1) Parameter.options name with
  | some (_, similar) =>
    .unexpected ("--" ++ name) (some similar) false
      (if used.contains similar then used else used ++ [similar])
  | none => .unexpected ("--" ++ name) none true used

/-- The parameter for the next argument that is no option. -/
def nextPosition? (p : Progress) : Option Parameter :=
  match p.positions with
  | 0 => some .config
  | 1 => some .formula
  | _ => none

/-- Reads arguments. `awaiting` says that the value of an option comes next, `only` that no options
come any more. -/
def read (p : Progress) (awaiting only : Bool) : List String → Demand
  | [] => p.finish
  | argument :: rest =>
    match argument.toList with
    | ['-', '-'] =>
      if only then place p argument rest else read p awaiting true rest
    | '-' :: '-' :: text =>
      if only then place p argument rest
      else
        let name := String.ofList (text.takeWhile (· != '='))
        let value := match text.dropWhile (· != '=') with
          | _ :: v => some (String.ofList v)
          | [] => none
        match Parameter.options.lookup name, value with
        | none, _ => .usage (p.unknownOption name)
        | some .logLevel, some v =>
          p.settled fun q =>
            { q with pending := some (.logLevel, some v) }.settled fun q => read q false false rest
        | some .logLevel, none =>
          p.settled fun q => read { q with pending := some (.logLevel, none) } true false rest
        | some x, some v =>
          .usage (.unexpectedValue v x p.used)
        | some .help, none => p.settled fun _ => .help
        | some .version, none => p.settled fun _ => .version
        | some x, none =>
          p.settled fun q =>
            if q.used.contains x then .usage (.repeated x)
            else read { q with used := q.used ++ [x] } false false rest
    | '-' :: letter :: _ =>
      if only then place p argument rest
      else match letter with
        | 'h' => p.settled fun _ => .help
        | 'V' => p.settled fun _ => .version
        | _ => .usage (.unexpected (String.ofList ['-', letter]) none true [])
    | _ =>
      if awaiting && !only then
        read { p with pending := some (.logLevel, some argument) } false false rest
      else place p argument rest
where
  /-- Takes an argument that is no option. -/
  place (p : Progress) (argument : String) (rest : List String) : Demand :=
    match p.nextPosition? with
    | none => .usage (.unexpected argument none false [])
    | some x =>
      p.settled fun q =>
        read { q with pending := some (x, some argument), positions := q.positions + 1 } false only
          rest

end Progress

/-- What the arguments ask for. -/
def Demand.ofArguments (arguments : List String) : Demand :=
  ({} : Progress).read false false arguments

end GraphLogic.CommandLine
