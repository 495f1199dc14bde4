import GraphLogic.Decimal.Shortest
import GraphLogic.Graph.Family
import GraphLogic.Text.Quoted
import GraphLogic.Toml.Document

/-!
# Configurations

A configuration file describes the graph that formulas are checked on, as a standard graph, as
lists of vertices and edges, or as both, and says whether reports are coloured.
-/

namespace GraphLogic

structure Config where
  vertices : List String := []
  edges : List (String × String) := []
  standard : Option Family := none
  /-- Whether reports are coloured. -/
  color : Bool := true
  deriving DecidableEq, Repr

/-! ## Errors -/

/-- What a value of the wrong kind is called. -/
def Toml.shown : Toml → String
  | string s => "string " ++ quoted s
  | integer n => "integer `" ++ toString n ++ "`"
  | float x => "floating point `" ++ floatText x ++ "`"
  | boolean b => "boolean `" ++ toString b ++ "`"
  | array _ | tables _ => "sequence"
  | moment | table .. => "map"

/-- Why a well formed file is no configuration. -/
inductive ShapeError
  | wrongType (found : Toml) (expected : String)
  | wrongValue (found : Toml) (expected : String)
  | wrongLength (length : Nat) (expected : String)
  | missingField (name : String)
  | unknownVariant (name : String)

namespace ShapeError

def message : ShapeError → String
  | wrongType found expected => "invalid type: " ++ found.shown ++ ", expected " ++ expected
  | wrongValue found expected => "invalid value: " ++ found.shown ++ ", expected " ++ expected
  | wrongLength length expected =>
    "invalid length " ++ toString length ++ ", expected " ++ expected
  | missingField name => "missing field `" ++ name ++ "`"
  | unknownVariant name =>
    "unknown variant `" ++ name ++
      "`, expected one of `edgeless`, `complete`, `complete-bipartite`, `path`, `cycle`"

end ShapeError

/-- Why there is no configuration, or no graph. -/
inductive ConfigError
  | unreadable (path reason : String)
  /-- The file is not well formed. -/
  | malformed
  | shape (e : ShapeError)
  | graph (e : GraphError)

namespace ConfigError

def message : ConfigError → String
  | unreadable path reason => "Failed to read config file '" ++ path ++ "': " ++ reason
  | malformed => "Invalid TOML"
  | shape e => "Invalid TOML: " ++ e.message
  | graph e => "Invalid graph: " ++ e.message

end ConfigError

/-! ## Decoding values -/

namespace Config

abbrev Decode (α : Type) := Except ShapeError α

def string : Toml → Decode String
  | .string s => .ok s
  | v => .error (.wrongType v "a string")

def boolean : Toml → Decode Bool
  | .boolean b => .ok b
  | v => .error (.wrongType v "a boolean")

/-- A number of vertices. -/
def size : Toml → Decode Nat
  | .integer n =>
    if n < 0 then .error (.wrongValue (.integer n) "usize") else .ok n.toNat
  | v => .error (.wrongType v "usize")

def list {α : Type} (item : Toml → Decode α) : Toml → Decode (List α)
  | .array items | .tables items => items.mapM item
  | v => .error (.wrongType v "a sequence")

/-- The error of a sequence with more items than wanted. -/
def tooLong {α : Type} (length wanted : Nat) : Decode α :=
  let items := if wanted = 1 then " element in sequence" else " elements in sequence"
  .error (.wrongLength length (toString wanted ++ items))

def pair : Toml → Decode (String × String)
  | .array items | .tables items =>
    match items with
    | [] => .error (.wrongLength 0 "a tuple of size 2")
    | [a] => do
      let _ ← string a
      .error (.wrongLength 1 "a tuple of size 2")
    | a :: b :: rest => do
      let ends := (← string a, ← string b)
      if rest.isEmpty then return ends else tooLong (rest.length + 2) 2
  | v => .error (.wrongType v "a tuple of size 2")

/-! ## Decoding standard graphs -/

inductive Kind
  | edgeless
  | complete
  | completeBipartite
  | path
  | cycle
  deriving DecidableEq, Repr

namespace Kind

/-- The name of the kind in a configuration file. -/
def name : Kind → String
  | edgeless => "edgeless"
  | complete => "complete"
  | completeBipartite => "complete-bipartite"
  | path => "path"
  | cycle => "cycle"

/-- The name of the kind in messages. -/
def title : Kind → String
  | edgeless => "Edgeless"
  | complete => "Complete"
  | completeBipartite => "CompleteBipartite"
  | path => "Path"
  | cycle => "Cycle"

def all : List Kind := [edgeless, complete, completeBipartite, path, cycle]

/-- The names of the sizes that a graph of the kind has. -/
def sizes : Kind → List String
  | completeBipartite => ["m", "n"]
  | _ => ["n"]

/-- The family of a kind with its sizes; sizes that are not given count as zero. -/
def family (k : Kind) (given : List Nat) : Family :=
  match k, given with
  | edgeless, n => .edgeless (n.headD 0)
  | complete, n => .complete (n.headD 0)
  | completeBipartite, m => .completeBipartite (m.headD 0) (m.tail.headD 0)
  | path, n => .path (n.headD 0)
  | cycle, n => .cycle (n.headD 0)

def decode : Toml → Decode Kind
  | .string s =>
    match all.find? (·.name == s) with
    | some k => .ok k
    | none => .error (.unknownVariant s)
  | v => .error (.wrongType v "variant identifier")

/-- A standard graph from the entries of a table. The entries are checked first, then those that
are missing are looked for. -/
def ofEntries (k : Kind) (es : Toml.Entries) : Decode Family := do
  let given ← (es.filter fun e => k.sizes.contains e.1).mapM fun e => return (e.1, ← size e.2)
  let sizes ← k.sizes.mapM fun name =>
    match given.lookup name with
    | some n => Except.ok n
    | none => .error (.missingField name)
  return k.family sizes

/-- A standard graph from the items of an array. -/
def ofItems (k : Kind) (items : List Toml) : Decode Family := do
  let wanted := k.sizes.length
  let sizes ← (items.take wanted).mapM size
  if items.length < wanted then
    let elements :=
      if wanted = 1 then " with 1 element" else " with " ++ toString wanted ++ " elements"
    .error (.wrongLength items.length ("struct variant StandardGraph::" ++ k.title ++ elements))
  else if wanted < items.length then tooLong items.length wanted
  else return k.family sizes

end Kind

def standardGraph : Toml → Decode Family
  | .table _ es =>
    match es.lookup "kind" with
    | some v => do (← Kind.decode v).ofEntries es
    | none => .error (.missingField "kind")
  | .moment => .error (.missingField "kind")
  | .array items | .tables items =>
    match items with
    | v :: rest => do (← Kind.decode v).ofItems rest
    | [] => .error (.missingField "kind")
  | v => .error (.wrongType v "internally tagged enum StandardGraph")

/-! ## Decoding configurations -/

/-- Whether reports are coloured, from the section on reports. -/
def reportColor : Toml → Decode Bool
  | .table _ es =>
    match es.lookup "color" with
    | some v => boolean v
    | none => .ok true
  | .moment => .ok true
  | .array items | .tables items =>
    match items with
    | v :: _ => boolean v
    | [] => .ok true
  | v => .error (.wrongType v "struct ReportConfig")

/-- The configuration with what one entry says about the graph. -/
def withEntry (c : Config) (e : String × Toml) : Decode Config :=
  match e.1 with
  | "vertices" => return { c with vertices := ← list string e.2 }
  | "edges" => return { c with edges := ← list pair e.2 }
  | "standard" => return { c with standard := some (← standardGraph e.2) }
  | _ => return c

/-- The configuration of a document. The section on reports is checked first; entries that do not
belong to a configuration are skipped. -/
def ofEntries (es : Toml.Entries) : Decode Config := do
  let color ← match es.lookup "report" with
    | some v => reportColor v
    | none => .ok true
  es.foldlM withEntry { color }

/-- The configuration that a text spells. -/
def parse (text : String) : Except ConfigError Config :=
  match Toml.parse? text with
  | some es => (ofEntries es).mapError .shape
  | none => .error .malformed

/-- The configuration of the file at `path`, given its text or the reason why it cannot be read. -/
def load (path : String) (contents : Except String String) : Except ConfigError Config := do
  parse (← contents.mapError (.unreadable path))

/-- The graph of a configuration: the standard graph, then the vertices, then the edges. -/
def build (c : Config) : Except GraphError Graph := do
  let g ← match c.standard with
    | some family => family.build
    | none => .ok {}
  let g ← c.vertices.foldlM (fun g label => g.addVertex ⟨label⟩) g
  c.edges.foldlM (fun g (a, b) => g.addEdge ⟨a⟩ ⟨b⟩) g

end Config

end GraphLogic
