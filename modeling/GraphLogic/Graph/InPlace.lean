import GraphLogic.Graph.Minor

/-!
# Changing a graph in place

The changes of a graph as they are carried out: one write after the other, with each check where
it is made. A write is not taken back when a later check fails.
-/

namespace GraphLogic

/-- The graph with changed neighbours of `v`, if `v` is a vertex. -/
def Graph.changeRow (g : Graph) (v : Vertex) (f : List Vertex → List Vertex) : Graph :=
  { g with rows := g.rows.map fun (u, us) => if u = v then (u, f us) else (u, us) }

/-- One round of the search for a new label: a label that a vertex has takes a prime, and any other
is kept. -/
def Graph.prime (g : Graph) (label : String) : String :=
  if g.hasVertex ⟨label⟩ then label ++ "'" else label

/-- A computation that changes a graph step by step and may stop with an error. -/
abbrev Edit (α : Type) := ExceptT GraphError (StateM Graph) α

namespace Edit

/-- The result of a computation, and the graph after it. -/
def runOn {α : Type} (m : Edit α) (g : Graph) : Except GraphError α × Graph :=
  StateT.run (ExceptT.run m) g

/-- Runs `m` and answers whether it succeeded. The graph is what `m` made of it, also when `m`
stopped with an error. -/
def attempt {α : Type} (m : Edit α) : Edit Bool := fun g =>
  let (result, after) := m.runOn g
  (.ok result.toBool, after)

/-- Adds an isolated vertex and answers its id. -/
def addVertex (v : Vertex) : Edit VertexId := do
  let g ← get
  if g.hasVertex v then throw (.duplicateVertex v)
  set { g with rows := g.rows ++ [(v, [])] }
  return g.vertexCount

/-- Records an edge in the rows of its ends and in the list of edges, in each unless it is there
already. -/
def link (e : Edge) : Edit Unit := do
  modify (·.changeRow e.source fun us => if e.target ∈ us then us else us ++ [e.target])
  modify (·.changeRow e.target fun us => if e.source ∈ us then us else us ++ [e.source])
  modify fun g => { g with edges := if g.edges.contains e then g.edges else g.edges ++ [e] }

def addEdge (a b : Vertex) : Edit Unit := do
  let e ← Edge.ofEnds a b
  if !(← get).hasVertex a then throw (.unknownVertex a)
  if !(← get).hasVertex b then throw (.unknownVertex b)
  if (← get).edges.contains e then throw (.duplicateEdge e)
  link e

/-- Takes `v` out, then out of the rows of its neighbours, then its edges. -/
def removeVertex (v : Vertex) : Edit Unit := do
  let around? := (← get).neighbors? v
  modify fun g => { g with rows := g.rows.filter fun (u, _) => u != v }
  match around? with
  | none => throw (.unknownVertex v)
  | some around =>
    around.forM fun u => modify (·.changeRow u (·.erase v))
    modify fun g => { g with edges := g.edges.filter fun e => !e.contains v }

/-- Takes the edge out of the list of edges, then out of the rows of its ends. -/
def removeEdge (a b : Vertex) : Edit Unit := do
  let e ← Edge.ofEnds a b
  let found := (← get).edges.contains e
  modify fun g => { g with edges := g.edges.filter fun f => f != e }
  if !found then throw (.missingEdge e)
  modify (·.changeRow a (·.erase b))
  modify (·.changeRow b (·.erase a))

/-- Adds the edges between every two of the given vertices that are not there yet. -/
def connectAll : List Vertex → Edit Unit
  | [] => return ()
  | v :: vs => do
    vs.forM fun u => do let _ ← (addEdge v u).attempt
    connectAll vs

def eliminateVertex (v : Vertex) : Edit Unit := do
  let around ← (← get).neighbors v
  connectAll around
  removeVertex v

/-- Merges the ends of an edge and answers the merged vertex. -/
def contractEdge (a b : Vertex) : Edit Vertex := do
  if !(← get).hasEdge a b then throw (.missingEdge (← Edge.ofEnds a b))
  let around := (← (← get).neighbors a) ++ (← (← get).neighbors b)
  let around := (around.filter fun v => v != a && v != b).eraseDups
  removeVertex b
  removeVertex a
  let merged : Vertex :=
    ⟨Graph.freshLabel ((← get).vertices.map (·.label)) (a.label ++ b.label)⟩
  let _ ← addVertex merged
  around.forM fun v => addEdge merged v
  return merged

/-- Makes the empty graph the complement of `g`: adds its vertices, and an edge between every two of
them whose ids are not adjacent. -/
def complementOf (g : Graph) : Edit Unit := do
  g.vertices.forM fun v => do let _ ← (addVertex v).attempt
  g.vertices.zipIdx.forM fun (a, i) =>
    (g.vertices.zipIdx.drop (i + 1)).forM fun (b, j) => do
      if !g.adjacent i j then
        let _ ← (addEdge a b).attempt

end Edit

end GraphLogic
