import GraphLogic.Graph.Family
import GraphLogic.Graph.Minor
import GraphLogic.Proofs.Except
import GraphLogic.Proofs.Graph.WellFormed

/-!
# The graphs that can be made

A graph comes from lists of vertices and edges or from a family, and is then changed, one change
after the other (`Reachable`). A change that is refused leaves the graph as it is.

**Theorem (`Reachable.coherent`).** In every graph that can be made, the rows and the list of
edges say the same, ids number the vertices, and the two lists determine the graph: built anew
from them, it is the same graph.

All of it follows from `WellFormed`, which every change keeps (`Reachable.wellFormed`).
-/

namespace GraphLogic.Graph

variable {vs : List Vertex} {es : List Edge} {g h : Graph} {a b m v : Vertex} {i j : VertexId}

/-! ## Changes -/

/-- A change that can be asked for. The forms that answer whether they did something make the
same changes as those that answer with an error. -/
inductive Change
  | addVertex (v : Vertex)
  | addEdge (a b : Vertex)
  | removeVertex (v : Vertex)
  | removeEdge (a b : Vertex)
  | eliminateVertex (v : Vertex)
  | contractEdge (a b : Vertex)
  | complement
  deriving DecidableEq, Repr

/-- The changed graph, or why the change is refused. -/
def Change.apply (g : Graph) : Change → Except GraphError Graph
  | addVertex v => g.addVertex v
  | addEdge a b => g.addEdge a b
  | removeVertex v => g.removeVertex v
  | removeEdge a b => g.removeEdge a b
  | eliminateVertex v => g.eliminateVertex v
  | contractEdge a b => (g.contractEdge a b).map (·.2)
  | complement => .ok g.complement

/-- The graph after a change, made or refused. -/
def change (g : Graph) (c : Change) : Graph := g.orSelf (c.apply g)

/-- The graphs that can be made. -/
inductive Reachable : Graph → Prop
  | empty : Reachable {}
  | ofParts {vs : List Vertex} {es : List (Vertex × Vertex)} {g : Graph} :
      ofParts vs es = .ok g → Reachable g
  | family {f : Family} {g : Graph} : f.build = .ok g → Reachable g
  | change {g : Graph} (c : Change) : Reachable g → Reachable (g.change c)

theorem Reachable.changes (hg : g.Reachable) (cs : List Change) :
    (cs.foldl Graph.change g).Reachable := by
  induction cs generalizing g with
  | nil => exact hg
  | cons c cs ih => exact ih (hg.change c)

/-! ## Every change keeps the graph well-formed -/

theorem WellFormed.connectAll (hg : g.WellFormed) (vs : List Vertex) :
    (g.connectAll vs).WellFormed := by
  induction vs generalizing g with
  | nil => exact hg
  | cons v vs ih =>
    exact ih (hg.foldl (fun h u hh => hh.orSelf fun _ => hh.addEdge) vs)

theorem WellFormed.eliminateVertex (hg : g.WellFormed) (hok : g.eliminateVertex v = .ok h) :
    h.WellFormed := by
  obtain ⟨around, -, hok⟩ := exists_of_bind_eq_ok hok
  exact (hg.connectAll around).removeVertex hok

/-- What a contraction consists of that succeeds. -/
theorem contractEdge_steps (hok : g.contractEdge a b = .ok (m, h)) :
    g.hasEdge a b = true ∧ ∃ around around' g₁ g₂ g₃,
      g.neighbors a = .ok around ∧ g.neighbors b = .ok around' ∧
      g.removeVertex b = .ok g₁ ∧ g₁.removeVertex a = .ok g₂ ∧
      m = ⟨freshLabel (g₂.vertices.map (·.label)) (a.label ++ b.label)⟩ ∧
      g₂.addVertex m = .ok g₃ ∧
      ((around ++ around').filter fun v => v != a && v != b).eraseDups.foldlM
        (fun h v => h.addEdge m v) g₃ = .ok h := by
  unfold contractEdge at hok
  cases hedge : g.hasEdge a b with
  | false =>
    rw [hedge] at hok
    obtain ⟨e, -, hok⟩ := exists_of_bind_eq_ok hok
    cases hok
  | true =>
    rw [hedge] at hok
    obtain ⟨around, ha, hok⟩ := exists_of_bind_eq_ok hok
    obtain ⟨around', hb, hok⟩ := exists_of_bind_eq_ok hok
    obtain ⟨g₁, hb₁, hok⟩ := exists_of_bind_eq_ok hok
    obtain ⟨g₂, ha₂, hok⟩ := exists_of_bind_eq_ok hok
    obtain ⟨g₃, hm, hok⟩ := exists_of_bind_eq_ok hok
    obtain ⟨g₄, hfold, hok⟩ := exists_of_bind_eq_ok hok
    cases hok
    exact ⟨rfl, around, around', g₁, g₂, g₃, ha, hb, hb₁, ha₂, rfl, hm, hfold⟩

theorem WellFormed.contractEdge (hg : g.WellFormed) (hok : g.contractEdge a b = .ok (m, h)) :
    h.WellFormed := by
  obtain ⟨-, _, _, g₁, g₂, g₃, -, -, hb, ha, -, hm, hfold⟩ := contractEdge_steps hok
  have hg₃ : g₃.WellFormed := ((hg.removeVertex hb).removeVertex ha).addVertex hm
  exact foldlM_invariant (fun _ _ _ hs => hs.addEdge) hg₃ hfold

theorem wellFormed_complement (g : Graph) : g.complement.WellFormed := by
  refine WellFormed.foldl (fun h ab hh => ?_) ?_ _
  · dsimp only
    split
    · exact hh
    · exact hh.orSelf fun _ => hh.addEdge
  · exact WellFormed.foldl (fun h v hh => hh.orSelf fun _ => hh.addVertex) wellFormed_empty _

theorem wellFormed_ofParts {es : List (Vertex × Vertex)} (hok : ofParts vs es = .ok g) :
    g.WellFormed := by
  obtain ⟨g₁, hvs, hes⟩ := exists_of_bind_eq_ok hok
  have hg₁ : g₁.WellFormed := foldlM_invariant (fun _ _ _ hs => hs.addVertex) wellFormed_empty hvs
  exact foldlM_invariant (fun _ _ _ hs => hs.addEdge) hg₁ hes

theorem WellFormed.withVertices (hg : g.WellFormed) (vs : List Vertex) :
    (g.withVertices vs).WellFormed :=
  hg.foldl (fun _ _ hh => hh.orSelf fun _ => hh.addVertex) vs

theorem WellFormed.withEdges (hg : g.WellFormed) (es : List (Vertex × Vertex)) :
    (g.withEdges es).WellFormed :=
  hg.foldl (fun _ _ hh => hh.orSelf fun _ => hh.addEdge) es

theorem wellFormed_path {n : Nat} (hok : path n = .ok g) : g.WellFormed := by
  unfold path at hok
  split at hok
  · cases hok
  · exact foldlM_invariant (fun _ _ _ hs => hs.addEdge) (wellFormed_empty.withVertices _) hok

theorem wellFormed_build {f : Family} (hok : f.build = .ok g) : g.WellFormed := by
  cases f with
  | edgeless n =>
    cases hok
    exact wellFormed_empty.withVertices _
  | complete n =>
    cases hok
    exact (wellFormed_empty.withVertices _).withEdges _
  | completeBipartite m n =>
    cases hok
    exact ((wellFormed_empty.withVertices _).withVertices _).withEdges _
  | path n => exact wellFormed_path hok
  | cycle n =>
    change Graph.cycle n = .ok g at hok
    unfold Graph.cycle at hok
    split at hok
    · cases hok
    · obtain ⟨g₁, hpath, hok⟩ := exists_of_bind_eq_ok hok
      exact (wellFormed_path hpath).addEdge hok

theorem WellFormed.apply {c : Change} (hg : g.WellFormed) (hok : c.apply g = .ok h) :
    h.WellFormed := by
  cases c with
  | addVertex v => exact hg.addVertex hok
  | addEdge a b => exact hg.addEdge hok
  | removeVertex v => exact hg.removeVertex hok
  | removeEdge a b => exact hg.removeEdge hok
  | eliminateVertex v => exact hg.eliminateVertex hok
  | contractEdge a b =>
    obtain ⟨r, hr, rfl⟩ := exists_of_map_eq_ok hok
    exact hg.contractEdge hr
  | complement =>
    cases hok
    exact wellFormed_complement g

theorem Reachable.wellFormed (hg : g.Reachable) : g.WellFormed := by
  induction hg with
  | empty => exact wellFormed_empty
  | ofParts hok => exact wellFormed_ofParts hok
  | family hok => exact wellFormed_build hok
  | change c _ ih => exact ih.orSelf fun _ => ih.apply

/-! ## Building a graph anew -/

theorem foldlM_addVertex_drawn {us : List Vertex} (hs : Simple (us ++ vs) []) :
    vs.foldlM addVertex (drawn us []) = .ok (drawn (us ++ vs) []) := by
  induction vs generalizing us with
  | nil =>
    rw [List.append_nil]
    rfl
  | cons v vs ih =>
    have hus : Simple us [] :=
      hs.sublist (List.sublist_append_left ..) (List.Sublist.refl _) (by simp)
    have hv : v ∉ us := fun hv =>
      (List.nodup_append.mp hs.vertices_nodup).2.2 v hv v List.mem_cons_self rfl
    rw [List.append_cons] at hs ⊢
    rw [List.foldlM_cons, addVertex_drawn hus hv]
    exact ih hs

theorem foldlM_addEdge_drawn {fs : List Edge} (hs : Simple vs (fs ++ es)) :
    (es.map Edge.ends).foldlM (fun g (a, b) => g.addEdge a b) (drawn vs fs) =
      .ok (drawn vs (fs ++ es)) := by
  induction es generalizing fs with
  | nil =>
    rw [List.append_nil]
    rfl
  | cons e es ih =>
    have hadd : (drawn vs fs).addEdge e.source e.target = .ok (drawn vs (fs ++ [e])) := by
      obtain ⟨hsource, htarget⟩ := hs.ends_mem e (List.mem_append_right _ List.mem_cons_self)
      rw [addEdge_eq_ok_iff]
      refine ⟨e, rfl, rfl, ?_, ?_, fun f hf => ?_, (link_drawn vs fs e).symm⟩
      · rwa [vertices_drawn]
      · rwa [vertices_drawn]
      · exact (List.pairwise_append.mp hs.edges_apart).2.2 f hf e List.mem_cons_self
    rw [List.append_cons] at hs ⊢
    rw [List.map_cons, List.foldlM_cons]
    dsimp only [Edge.ends]
    rw [hadd]
    exact ih hs

theorem WellFormed.ofParts_eq (hg : g.WellFormed) :
    ofParts g.vertices (g.edges.map Edge.ends) = .ok g := by
  obtain ⟨vs, es, hs, rfl⟩ := hg
  have hvs : Simple ([] ++ vs) [] :=
    hs.sublist (List.Sublist.refl _) (List.nil_sublist _) (by simp)
  have hbuild := foldlM_addVertex_drawn hvs
  rw [vertices_drawn, edges_drawn]
  unfold ofParts
  rw [show ({} : Graph) = drawn [] [] from rfl, hbuild]
  exact foldlM_addEdge_drawn hs

/-! ## What the parts of a graph say agrees -/

/-- The rows, the list of edges and the ids of a graph say the same. -/
structure Coherent (g : Graph) : Prop where
  no_loop : ∀ e ∈ g.edges, e.source ≠ e.target
  ends_mem : ∀ e ∈ g.edges, e.source ∈ g.vertices ∧ e.target ∈ g.vertices
  /-- No two edges have the same ends. -/
  edges_apart : g.edges.Pairwise fun e f => e.joins f.source f.target = false
  hasEdge_symm : ∀ a b, g.hasEdge a b = g.hasEdge b a
  hasEdge_iff_edge : ∀ a b, g.hasEdge a b = true ↔ ∃ e ∈ g.edges, e.joins a b = true
  /-- The neighbours of a vertex are the vertices across its edges, in the order of the edges. -/
  neighbors_across : ∀ a ∈ g.vertices, g.neighbors a = .ok (g.edges.filterMap (·.across? a))
  vertexId?_iff : ∀ v i, g.vertexId? v = some i ↔ g.vertex? i = some v
  vertexId?_isSome : ∀ v, (∃ i, g.vertexId? v = some i) ↔ v ∈ g.vertices
  vertex?_isSome : ∀ i, (∃ v, g.vertex? i = some v) ↔ i < g.vertexCount
  adjacent_eq : ∀ i j a b, g.vertex? i = some a → g.vertex? j = some b →
    g.adjacent i j = g.hasEdge a b
  /-- The vertices and the ends of the edges are all there is to the graph. -/
  rebuilt : Graph.ofParts g.vertices (g.edges.map Edge.ends) = .ok g

/-- **Coherence.** In every graph that can be made, by whatever changes, made or refused, all
parts say the same. -/
theorem Reachable.coherent (hg : g.Reachable) : g.Coherent := by
  have hwf := hg.wellFormed
  have hs := hwf.simple
  exact {
    no_loop := fun e _ => e.distinct
    ends_mem := hs.ends_mem
    edges_apart := hs.edges_apart
    hasEdge_symm := hwf.hasEdge_comm
    hasEdge_iff_edge := fun _ _ => hwf.hasEdge_iff
    neighbors_across := fun _ ha => hwf.neighbors_eq ha
    vertexId?_iff := fun _ _ => hwf.vertexId?_eq_some_iff
    vertexId?_isSome := fun _ => exists_vertexId?_iff
    vertex?_isSome := fun _ => lt_vertexCount_iff.symm
    adjacent_eq := fun _ _ _ _ hi hj => hwf.adjacent_eq_hasEdge hi hj
    rebuilt := hwf.ofParts_eq }

/-- A path of three vertices with its first edge contracted, after a refused change. -/
theorem Reachable.coherent_contracted :
    let a : Vertex := ⟨"a"⟩
    let b : Vertex := ⟨"b"⟩
    let c : Vertex := ⟨"c"⟩
    let changes : List Change := [.addVertex a, .addVertex b, .addVertex c, .addEdge a b,
      .addEdge b c, .addEdge c b, .contractEdge a b]
    (changes.foldl Graph.change {}).Coherent := by
  intro a b c changes
  exact Reachable.coherent (Reachable.empty.changes changes)

end GraphLogic.Graph
