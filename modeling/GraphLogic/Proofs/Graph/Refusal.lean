import GraphLogic.Proofs.Graph.Minor

/-!
# When changes are refused

**Theorem (`Change.errorOf?_apply`).** Whether a change of a graph is refused, and with which
error, can be told from its vertices and edges (`Change.refusal?`). Elimination is refused just
when the vertex is not there, and contraction just when the edge is not: neither fails for a
reason that only shows on the way.
-/

namespace GraphLogic.Graph

variable {g : Graph}

/-- The refusal of a change of a vertex that is not there. -/
def absent? (g : Graph) (v : Vertex) : Option GraphError :=
  if v ∈ g.vertices then none else some (.unknownVertex v)

/-- The refusal of a change of an edge that is not there. -/
def unjoined? (g : Graph) (a b : Vertex) : Option GraphError :=
  if hab : a = b then some (.selfLoop a)
  else if ∃ e ∈ g.edges, e.joins a b = true then none
  else some (.missingEdge ⟨a, b, hab⟩)

/-- The refusal of a new edge, for the first of the reasons. -/
def unlinkable? (g : Graph) (a b : Vertex) : Option GraphError :=
  if hab : a = b then some (.selfLoop a)
  else if a ∉ g.vertices then some (.unknownVertex a)
  else if b ∉ g.vertices then some (.unknownVertex b)
  else if ∃ e ∈ g.edges, e.joins a b = true then some (.duplicateEdge ⟨a, b, hab⟩)
  else none

/-- Why a change is refused, told from the vertices and edges alone. -/
def Change.refusal? (g : Graph) : Change → Option GraphError
  | addVertex v => if v ∈ g.vertices then some (.duplicateVertex v) else none
  | addEdge a b => g.unlinkable? a b
  | removeVertex v | eliminateVertex v => g.absent? v
  | removeEdge a b | contractEdge a b => g.unjoined? a b
  | complement => none

theorem errorOf?_addVertex (g : Graph) (v : Vertex) :
    errorOf? (g.addVertex v) = if v ∈ g.vertices then some (.duplicateVertex v) else none := by
  unfold addVertex
  simp only [hasVertex_iff]
  split <;> rfl

theorem errorOf?_addEdge (g : Graph) (a b : Vertex) :
    errorOf? (g.addEdge a b) = g.unlinkable? a b := by
  rw [addEdge_eq]
  unfold unlinkable?
  simp only [contains_edge_iff]
  split_ifs <;> rfl

theorem errorOf?_removeVertex (hg : g.WellFormed) (v : Vertex) :
    errorOf? (g.removeVertex v) = g.absent? v := by
  unfold absent?
  by_cases hv : v ∈ g.vertices
  · obtain ⟨h, hok⟩ := exists_removeVertex hg hv
    rw [hok, if_pos hv]
    rfl
  · unfold Graph.removeVertex
    rw [hg.neighbors?_eq, if_neg hv, if_neg hv]
    rfl

theorem errorOf?_removeEdge (hg : g.WellFormed) (a b : Vertex) :
    errorOf? (g.removeEdge a b) = g.unjoined? a b := by
  unfold unjoined?
  by_cases hab : a = b
  · unfold Graph.removeEdge Edge.ofEnds
    rw [dif_pos hab, dif_pos hab]
    rfl
  rw [dif_neg hab]
  by_cases hj : ∃ e ∈ g.edges, e.joins a b = true
  · obtain ⟨vs, es, hs, rfl⟩ := hg
    rw [removeEdge_drawn hs hab hj, if_pos hj]
    rfl
  · have hedge : g.edges.contains ⟨a, b, hab⟩ = false := by
      rw [Bool.eq_false_iff, ne_eq, contains_edge_iff]
      exact hj
    unfold Graph.removeEdge Edge.ofEnds
    rw [dif_neg hab, if_neg hj]
    simp only [bind, Except.bind, hedge, Bool.not_false, if_true]
    rfl

theorem errorOf?_eliminateVertex (hg : g.WellFormed) (v : Vertex) :
    errorOf? (g.eliminateVertex v) = g.absent? v := by
  unfold absent? Graph.eliminateVertex
  by_cases hv : v ∈ g.vertices
  · obtain ⟨h, hok⟩ := exists_removeVertex (hg.connectAll (across g.edges v))
      (by rwa [vertices_connectAll])
    rw [hg.neighbors_eq hv, if_pos hv]
    show errorOf? ((g.connectAll (across g.edges v)).removeVertex v) = none
    rw [hok]
    rfl
  · rw [neighbors_eq_error hg hv, if_neg hv]
    rfl

theorem errorOf?_contractEdge (hg : g.WellFormed) (a b : Vertex) :
    errorOf? (g.contractEdge a b) = g.unjoined? a b := by
  unfold unjoined?
  by_cases hj : ∃ e ∈ g.edges, e.joins a b = true
  · obtain ⟨r, hok⟩ := exists_contractEdge hg hj
    obtain ⟨e, he, hab⟩ := id hj
    rw [hok, dif_neg (Edge.ne_of_joins hab), if_pos hj]
    rfl
  · simp only [contractEdge_eq_error hg hj, if_neg hj]
    unfold Edge.ofEnds
    split <;> rfl

theorem Change.errorOf?_apply (hg : g.WellFormed) (c : Change) :
    errorOf? (c.apply g) = c.refusal? g := by
  cases c with
  | addVertex v => exact errorOf?_addVertex g v
  | addEdge a b => exact errorOf?_addEdge g a b
  | removeVertex v => exact errorOf?_removeVertex hg v
  | removeEdge a b => exact errorOf?_removeEdge hg a b
  | eliminateVertex v => exact errorOf?_eliminateVertex hg v
  | contractEdge a b =>
    refine Eq.trans ?_ (errorOf?_contractEdge hg a b)
    show errorOf? ((g.contractEdge a b).map (·.2)) = _
    cases g.contractEdge a b <;> rfl
  | complement => rfl

end GraphLogic.Graph
