/-!
# Values of a configuration file

TOML values. A table remembers how it was opened, because that decides what may be added to it
later in the file.
-/

namespace GraphLogic

/-- How a table was opened. -/
inductive Toml.Origin
  /-- Written in braces; complete where it stands. -/
  | braces
  /-- By a header of its own. -/
  | header
  /-- On the way to the table of a header. -/
  | implied
  /-- By a dotted key. -/
  | dotted
  deriving DecidableEq, Repr

inductive Toml
  | string (text : String)
  | integer (n : Int)
  | float (x : Float)
  | boolean (b : Bool)
  /-- A date, a time or both. -/
  | moment
  | array (items : List Toml)
  /-- An array of tables that are opened by headers. -/
  | tables (items : List Toml)
  | table (origin : Toml.Origin) (entries : List (String × Toml))
  deriving Inhabited

end GraphLogic
