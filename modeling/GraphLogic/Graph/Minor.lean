import GraphLogic.Graph

/-!
# Elimination, contraction and complement

Three ways to make a graph of another one that keep to its vertices.
-/

namespace GraphLogic.Graph

/-- The graph with an edge between every two of the given vertices. -/
def connectAll (g : Graph) : List Vertex → Graph
  | [] => g
  | v :: vs => connectAll (vs.foldl (fun h u => h.orSelf (h.addEdge v u)) g) vs

/-- The graph with all neighbours of `v` connected to each other, and without `v`. -/
def eliminateVertex (g : Graph) (v : Vertex) : Except GraphError Graph := do
  (g.connectAll (← g.neighbors v)).removeVertex v

/-- The label with as few primes behind it as make it differ from all labels of `taken`. -/
def freshLabel (taken : List String) (label : String) : String :=
  if label ∈ taken then freshLabel (taken.erase label) (label ++ "'") else label
termination_by taken.length
decreasing_by
  have := List.length_erase_of_mem ‹label ∈ taken›
  have := List.length_pos_of_mem ‹label ∈ taken›
  omega

/-- The graph with the adjacent vertices `a` and `b` merged into one, and that vertex. It takes its
label from both, and is adjacent to all other neighbours of either. -/
def contractEdge (g : Graph) (a b : Vertex) : Except GraphError (Vertex × Graph) := do
  if !g.hasEdge a b then throw (.missingEdge (← Edge.ofEnds a b))
  let around := (← g.neighbors a) ++ (← g.neighbors b)
  let around := (around.filter fun v => v != a && v != b).eraseDups
  let h ← (← g.removeVertex b).removeVertex a
  let merged := ⟨freshLabel (h.vertices.map (·.label)) (a.label ++ b.label)⟩
  return (merged, ← around.foldlM (fun h v => h.addEdge merged v) (← h.addVertex merged))

/-- The pairs of the entries of a list, each with those behind it. -/
def pairs {α : Type} : List α → List (α × α)
  | [] => []
  | a :: as => as.map (a, ·) ++ pairs as

/-- The graph on the same vertices in which two of them are adjacent just when they are not
adjacent here. -/
def complement (g : Graph) : Graph :=
  let h := g.vertices.foldl (fun h v => h.orSelf (h.addVertex v)) {}
  (pairs g.vertices).foldl
    (fun h (a, b) => if g.hasEdge a b then h else h.orSelf (h.addEdge a b)) h

end GraphLogic.Graph
