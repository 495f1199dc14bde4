/-!
# Graphs

Finite simple undirected graphs. Vertices are identified by their labels and keep the order in
which they were added; the position of a vertex in that order is its id. Every edge is recorded
twice: in the list of edges, and as a neighbour in the rows of its two ends.
-/

namespace GraphLogic

structure Vertex where
  label : String
  deriving DecidableEq, Repr

/-- The position of a vertex in the order of its graph. -/
abbrev VertexId := Nat

/-- An undirected edge. It keeps the direction in which it was given, which tells edges apart only
when they are shown. -/
structure Edge where
  source : Vertex
  target : Vertex
  distinct : source ≠ target
  deriving DecidableEq, Repr

namespace Edge

def contains (e : Edge) (v : Vertex) : Bool := e.source == v || e.target == v

/-- Whether the edge has the ends `a` and `b`, in either direction. -/
def joins (e : Edge) (a b : Vertex) : Bool :=
  (e.source == a && e.target == b) || (e.source == b && e.target == a)

instance : BEq Edge := ⟨fun e f => e.joins f.source f.target⟩

/-- Both directions of an edge share their hash. -/
instance : Hashable Edge := ⟨fun e => hash e.source.label + hash e.target.label⟩

protected def toString (e : Edge) : String :=
  "\x7b" ++ e.source.label ++ ", " ++ e.target.label ++ "\x7d"

end Edge

/-- Why a graph cannot be built or changed in some way. -/
inductive GraphError
  | duplicateVertex (v : Vertex)
  | unknownVertex (v : Vertex)
  | selfLoop (v : Vertex)
  | duplicateEdge (e : Edge)
  | missingEdge (e : Edge)
  /-- A graph of the family needs at least `least` vertices. -/
  | tooSmall (family : String) (least : Nat)
  deriving DecidableEq, Repr

namespace GraphError

def message : GraphError → String
  | duplicateVertex v => "Vertex '" ++ v.label ++ "' already exists"
  | unknownVertex v => "Vertex '" ++ v.label ++ "' does not exist"
  | selfLoop v =>
    "Edge must be between two different vertices, found loop at '" ++ v.label ++ "'"
  | duplicateEdge e => "Edge '" ++ e.toString ++ "' already exists"
  | missingEdge e => "Edge '" ++ e.toString ++ "' does not exist"
  | tooSmall family least =>
    "A " ++ family ++ " graph must have at least " ++ toString least ++
      if least = 1 then " vertex" else " vertices"

end GraphError

/-- The edge from `a` to `b`. -/
def Edge.ofEnds (a b : Vertex) : Except GraphError Edge :=
  if h : a = b then .error (.selfLoop a) else .ok ⟨a, b, h⟩

structure Graph where
  /-- Each vertex with its neighbours, both in the order in which they were added. -/
  rows : List (Vertex × List Vertex) := []
  /-- The edges in the order in which they were added. -/
  edges : List Edge := []
  deriving Repr, Inhabited

namespace Graph

/-! ## Looking at a graph -/

def vertices (g : Graph) : List Vertex := g.rows.map (·.1)

def vertexCount (g : Graph) : Nat := g.rows.length

def edgeCount (g : Graph) : Nat := g.edges.length

def isEmpty (g : Graph) : Bool := g.rows.isEmpty

def hasVertex (g : Graph) (v : Vertex) : Bool := g.vertices.contains v

/-- The neighbours of `v` in the order in which the edges were added. -/
def neighbors? (g : Graph) (v : Vertex) : Option (List Vertex) := g.rows.lookup v

def neighbors (g : Graph) (v : Vertex) : Except GraphError (List Vertex) :=
  match g.neighbors? v with
  | some vs => .ok vs
  | none => .error (.unknownVertex v)

def degree? (g : Graph) (v : Vertex) : Option Nat := (g.neighbors? v).map List.length

def hasEdge (g : Graph) (a b : Vertex) : Bool :=
  match g.neighbors? a with
  | some vs => vs.contains b
  | none => false

def vertexId? (g : Graph) (v : Vertex) : Option VertexId := g.vertices.idxOf? v

def vertex? (g : Graph) (i : VertexId) : Option Vertex := (g.rows[i]?).map (·.1)

/-- The neighbours of the vertex with the id `i`. -/
def neighborsAt (g : Graph) (i : VertexId) : List Vertex := ((g.rows[i]?).map (·.2)).getD []

/-- Whether the vertex with the id `i` is one of `vs`. -/
def isAmong (g : Graph) (vs : List Vertex) (i : VertexId) : Bool :=
  match g.vertex? i with
  | some v => vs.contains v
  | none => false

/-- Whether the vertices with the ids `i` and `j` are adjacent. -/
def adjacent (g : Graph) (i j : VertexId) : Bool := g.isAmong (g.neighborsAt i) j

/-- Whether two graphs have the same vertices and the same edges, in whatever order and
direction. -/
def same (g h : Graph) : Bool :=
  g.vertexCount == h.vertexCount && g.vertices.all h.hasVertex &&
    g.edgeCount == h.edgeCount && g.edges.all h.edges.contains

/-- Whether `v` is a vertex with the neighbours `vs`, in whatever order. -/
def hasRow (g : Graph) (v : Vertex) (vs : List Vertex) : Bool :=
  match g.neighbors? v with
  | some ws => vs.length == ws.length && vs.all ws.contains
  | none => false

/-- Comparison of all that two graphs record: the neighbours in each row, and the edges. Vertices,
neighbours and edges may come in any order. -/
instance : BEq Graph where
  beq g h :=
    g.vertexCount == h.vertexCount && (g.rows.all fun (v, vs) => h.hasRow v vs) &&
      g.edgeCount == h.edgeCount && g.edges.all h.edges.contains

protected def toString (g : Graph) : String :=
  "V = \x7b" ++ ", ".intercalate (g.vertices.map (·.label)) ++
    "\x7d, E = \x7b" ++ ", ".intercalate (g.edges.map (·.toString)) ++ "\x7d"

/-! ## Changing a graph -/

/-- The graph with an isolated vertex more; the id of the new vertex is the old vertex count. -/
def addVertex (g : Graph) (v : Vertex) : Except GraphError Graph :=
  if g.hasVertex v then .error (.duplicateVertex v)
  else .ok { g with rows := g.rows ++ [(v, [])] }

/-- Records an edge in the list of edges and in the rows of its ends. -/
def link (g : Graph) (e : Edge) : Graph where
  rows := g.rows.map fun (v, vs) =>
    if v = e.source then (v, vs ++ [e.target])
    else if v = e.target then (v, vs ++ [e.source])
    else (v, vs)
  edges := g.edges ++ [e]

def addEdge (g : Graph) (a b : Vertex) : Except GraphError Graph := do
  let e ← Edge.ofEnds a b
  if !g.hasVertex a then throw (.unknownVertex a)
  if !g.hasVertex b then throw (.unknownVertex b)
  if g.edges.contains e then throw (.duplicateEdge e)
  return g.link e

/-- The graph without `v` and its edges. Only the rows of its neighbours mention `v`. -/
def removeVertex (g : Graph) (v : Vertex) : Except GraphError Graph :=
  match g.neighbors? v with
  | some around =>
    .ok {
      rows := (g.rows.filter fun (u, _) => u != v).map fun (u, us) =>
        if u ∈ around then (u, us.erase v) else (u, us)
      edges := g.edges.filter fun e => !e.contains v }
  | none => .error (.unknownVertex v)

/-- The graph without the edge between `a` and `b`. -/
def removeEdge (g : Graph) (a b : Vertex) : Except GraphError Graph := do
  let e ← Edge.ofEnds a b
  if !g.edges.contains e then throw (.missingEdge e)
  return {
    rows := g.rows.map fun (v, vs) =>
      if v = a then (v, vs.erase b) else if v = b then (v, vs.erase a) else (v, vs)
    edges := g.edges.filter fun f => f != e }

/-- What a change makes of the graph, or the graph itself where the change is refused. -/
def orSelf (g : Graph) (changed : Except GraphError Graph) : Graph :=
  match changed with
  | .ok h => h
  | .error _ => g

/-- The graph with the given vertices and edges, or the error of the first that is refused. -/
def ofParts (vs : List Vertex) (es : List (Vertex × Vertex)) : Except GraphError Graph := do
  let g ← vs.foldlM addVertex {}
  es.foldlM (fun g (a, b) => g.addEdge a b) g

end Graph

end GraphLogic
