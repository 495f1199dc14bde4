import GraphLogic.Toml.Entries
import GraphLogic.Toml.Scalar

/-!
# Configuration files

A file is a list of statements, one a line: headers, which open tables, and entries, which fill the
table opened last.
-/

namespace GraphLogic.Toml

/-- Arrays and tables in braces nest at most so deep. -/
def nestingLimit : Nat := 79

/-- Dotted keys have fewer parts. -/
def keyLimit : Nat := 80

inductive Statement
  /-- `[path.key]` -/
  | table (path : List String) (key : String)
  /-- `[[path.key]]` -/
  | tables (path : List String) (key : String)
  /-- `path.key = v` -/
  | entry (path : List String) (key : String) (v : Toml)

namespace Written

open Scan

/-! ## Keys and values -/

def spaces : Scan Unit := run isSpace *> pure ()

def comment : Scan Unit := exactly "#" *> run isText *> pure ()

def bareKey : Scan String :=
  String.ofList <$> run1 fun c => c.isAlphanum || c == '-' || c == '_'

/-- A key with the keys on the way to it. -/
def dottedKey : Scan (List String × String) := do
  let parts ← separated (spaces *> (basicString <|> literalString <|> bareKey) <* spaces)
    (exactly ".")
  match parts.getLast? with
  | some key => if parts.length < keyLimit then return (parts.dropLast, key) else failure
  | none => failure

/-- White space, comments and line ends between the items of an array. -/
def gap : Scan Unit :=
  many ((run1 isSpace *> pure ()) <|> (maybe comment *> newline)) *> pure ()

def array (item : Scan Toml) : Scan Toml := do
  exactly "["
  let items ← maybe (separated (gap *> item <* gap) (exactly ","))
  if items.isSome then
    let _ ← maybe (exactly ",")
  gap
  exactly "]"
  return .array (items.getD [])

/-- An entry: a key, an equals sign and a value. -/
def entry (value : Scan Toml) : Scan ((List String × String) × Toml) := do
  let key ← dottedKey
  exactly "="
  spaces
  return (key, ← value)

/-- A table in braces, which stands on one line. -/
def inlineTable (value : Scan Toml) : Scan Toml := do
  exactly "\x7b"
  let entries ← maybe (separated (entry value <* spaces) (exactly ","))
  spaces
  exactly "\x7d"
  match (entries.getD []).foldlM (fun es ((path, key), v) => Entries.add es path key v) [] with
  | some es => return .table .braces es
  | none => failure

/-- A value with at most `depth` arrays and tables inside each other. -/
def value (depth : Nat) : Scan Toml :=
  match depth with
  | 0 => scalar
  | depth + 1 => array (value depth) <|> inlineTable (value depth) <|> scalar

/-! ## Statements -/

/-- The end of a line, with what may stand before it. -/
def lineEnd : Scan Unit := do
  spaces
  let _ ← maybe comment
  newline <|> ended

def header : Scan Statement :=
  (do
    exactly "[["
    let (path, key) ← dottedKey
    exactly "]]"
    return .tables path key) <|>
  (do
    exactly "["
    let (path, key) ← dottedKey
    exactly "]"
    return .table path key)

def statement : Scan Statement :=
  header <|> (do
    let ((path, key), v) ← entry (value nestingLimit)
    return .entry path key v)

/-- One line, with its statement if it has one. -/
def line : Scan (Option Statement) := do
  spaces
  (some <$> statement <* lineEnd) <|> (maybe comment *> newline *> pure none) <|>
    (comment *> ended *> pure none)

def statements : Scan (List Statement) := do
  let _ ← maybe (exactly "\ufeff")
  let lines ← many line
  spaces
  return lines.filterMap id

end Written

/-! ## Documents -/

/-- A document in the making: the finished tables, and the table that is being filled. -/
structure Draft where
  root : Entries := []
  /-- The header of the table that is being filled; at the start of a document there is none. -/
  opened : Option Statement := none
  current : Entries := []

namespace Draft

/-- The root with the table that is being filled in its place. -/
def close (d : Draft) : Option Entries :=
  match d.opened with
  | none => some d.current
  | some (.table path key) => d.root.putTable path key d.current
  | some (.tables path key) => d.root.pushTable path key (some d.current)
  | some (.entry ..) => none

def add (d : Draft) : Statement → Option Draft
  | .entry path key v => do return { d with current := ← d.current.add path key v }
  | .table path key => do
    let (held, root) ← (← d.close).takeTable path key
    return { root, opened := some (.table path key), current := held }
  | .tables path key => do
    let root ← (← d.close).pushTable path key none
    return { root, opened := some (.tables path key), current := [] }

end Draft

/-- The entries of a document, if it is well formed. -/
def parse? (text : String) : Option Entries := do
  let statements ← Written.statements.all? text.toList
  (← statements.foldlM Draft.add {}).close

end GraphLogic.Toml
