import GraphLogic.Graph

/-!
# Families of graphs

The standard graphs. Their vertices are labelled with the numbers from 1, those of the second part
of a bipartite graph with a prime.
-/

namespace GraphLogic

inductive Family
  | edgeless (n : Nat)
  | complete (n : Nat)
  | completeBipartite (m n : Nat)
  | path (n : Nat)
  | cycle (n : Nat)
  deriving DecidableEq, Repr

/-- The vertex labelled with the number `i`. -/
def Vertex.numbered (i : Nat) : Vertex := ⟨toString i⟩

/-- The vertex labelled with the number `i` and a prime. -/
def Vertex.primed (i : Nat) : Vertex := ⟨toString i ++ "'"⟩

namespace Graph

/-- The graph with the vertices that are new to it. -/
def withVertices (g : Graph) (vs : List Vertex) : Graph :=
  vs.foldl (fun h v => h.orSelf (h.addVertex v)) g

/-- The graph with the edges that it admits. -/
def withEdges (g : Graph) (es : List (Vertex × Vertex)) : Graph :=
  es.foldl (fun h (a, b) => h.orSelf (h.addEdge a b)) g

/-- `n` isolated vertices. -/
def edgeless (n : Nat) : Graph :=
  withVertices {} ((List.range' 1 n).map .numbered)

/-- `n` vertices, every two adjacent. -/
def complete (n : Nat) : Graph :=
  (edgeless n).withEdges <| (List.range' 1 n).flatMap fun i =>
    (List.range' (i + 1) (n - i)).map fun j => (.numbered i, .numbered j)

/-- Parts of `m` and `n` vertices, every vertex adjacent to all of the other part. -/
def completeBipartite (m n : Nat) : Graph :=
  ((edgeless m).withVertices ((List.range' 1 n).map .primed)).withEdges <|
    (List.range' 1 m).flatMap fun i => (List.range' 1 n).map fun j => (.numbered i, .primed j)

/-- `n` vertices, each adjacent to the next. -/
def path (n : Nat) : Except GraphError Graph :=
  if n < 1 then .error (.tooSmall "path" 1)
  else (List.range' 1 (n - 1)).foldlM (fun g i => g.addEdge (.numbered i) (.numbered (i + 1)))
    (edgeless n)

/-- `n` vertices, each adjacent to the next and the last to the first. -/
def cycle (n : Nat) : Except GraphError Graph :=
  if n < 3 then .error (.tooSmall "cycle" 3)
  else do (← path n).addEdge (.numbered 1) (.numbered n)

end Graph

/-- The graph of a family. -/
def Family.build : Family → Except GraphError Graph
  | edgeless n => .ok (.edgeless n)
  | complete n => .ok (.complete n)
  | completeBipartite m n => .ok (.completeBipartite m n)
  | path n => Graph.path n
  | cycle n => Graph.cycle n

end GraphLogic
