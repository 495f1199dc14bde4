import GraphLogic.Graph

/-!
# Connected components

The component of a vertex is found by breadth-first search. The search keeps the ids that were not
reached yet, so that each id leaves that list once; what is left when the queue is empty lies in
other components.
-/

namespace GraphLogic.Graph

/-- The ids among `fresh` that are adjacent to `i`, and the others. -/
def splitAdjacent (g : Graph) (i : VertexId) (fresh : List VertexId) :
    List VertexId × List VertexId :=
  fresh.partition (g.isAmong (g.neighborsAt i))

theorem splitAdjacent_eq (g : Graph) (i : VertexId) (fresh : List VertexId) :
    g.splitAdjacent i fresh =
      (fresh.filter (g.adjacent i), fresh.filter fun j => !g.adjacent i j) :=
  List.partition_eq_filter_filter ..

theorem length_splitAdjacent (g : Graph) (i : VertexId) (fresh : List VertexId) :
    (g.splitAdjacent i fresh).1.length + (g.splitAdjacent i fresh).2.length = fresh.length := by
  rw [splitAdjacent_eq]
  induction fresh with
  | nil => rfl
  | cons j fresh ih => by_cases h : g.adjacent i j <;> simp [h] at ih ⊢ <;> omega

/-- The ids of `fresh` that cannot be reached from the queue through ids of `fresh`. -/
def unreached (g : Graph) (queue fresh : List VertexId) : List VertexId :=
  match queue with
  | [] => fresh
  | i :: queue =>
    let split := g.splitAdjacent i fresh
    unreached g (queue ++ split.1) split.2
termination_by queue.length + fresh.length
decreasing_by
  have := g.length_splitAdjacent i fresh
  simp only [List.length_append, List.length_cons]
  omega

theorem length_unreached_le (g : Graph) (queue fresh : List VertexId) :
    (g.unreached queue fresh).length ≤ fresh.length := by
  fun_induction unreached g queue fresh with
  | case1 => exact Nat.le_refl _
  | case2 fresh i queue split ih =>
    exact Nat.le_trans ih (Nat.le.intro (Nat.add_comm .. ▸ g.length_splitAdjacent i fresh))

/-- The number of components that the ids of `fresh` make up. -/
def countComponents (g : Graph) (fresh : List VertexId) : Nat :=
  match fresh with
  | [] => 0
  | i :: fresh => 1 + countComponents g (g.unreached [i] fresh)
termination_by fresh.length
decreasing_by
  have := g.length_unreached_le [i] fresh
  simp only [List.length_cons]
  omega

def componentCount (g : Graph) : Nat := g.countComponents (List.range g.vertexCount)

/-- Whether every two vertices are joined by a path; the empty graph is connected. -/
def isConnected (g : Graph) : Bool := g.componentCount ≤ 1

/-- Whether the graph is a forest. -/
def isAcyclic (g : Graph) : Bool := g.edgeCount + g.componentCount == g.vertexCount

/-- Whether the graph is nonempty, connected and without cycles. -/
def isTree (g : Graph) : Bool := !g.isEmpty && g.isConnected && g.isAcyclic

end GraphLogic.Graph
