import GraphLogic.Config
import GraphLogic.Proofs.Graph.Parts

/-!
# The graph of a configuration

A configuration puts its own vertices and edges behind those of a standard graph, so that vertices
and edges alternate: first the vertices and edges of the standard graph, then those of the
configuration.

**Theorem (`build_eq_ofParts`).** What becomes of this is what becomes of the vertices of both,
followed by the edges of both, down to the orders and the error.

The edges of the standard graph can wait until the other vertices are there
(`foldlM_addVertex_swap`): they do not keep a vertex from being added, and a new vertex does not
keep them from being added.

**Theorem (`parts_determine`).** So what is known of lists, and of the order in them, holds of
configurations, too.
-/

namespace GraphLogic

open GraphLogic.Graph

variable {vs : List Vertex} {es : List Edge} {base : Graph}

/-- Vertices can be added before the edges of a graph or behind them. -/
theorem Graph.foldlM_addVertex_swap (hs : Simple vs es) (us : List Vertex) :
    (us.foldlM addVertex (drawn vs []) >>= fun g =>
        (es.map Edge.ends).foldlM (fun g (a, b) => g.addEdge a b) g) =
      us.foldlM addVertex (drawn vs es) := by
  induction us generalizing vs with
  | nil => exact foldlM_addEdge_drawn (show Simple vs ([] ++ es) from hs)
  | cons u us ih =>
    have hs₀ : Simple vs [] := hs.sublist (.refl _) (List.nil_sublist _) (by simp)
    rw [List.foldlM_cons, List.foldlM_cons]
    by_cases hu : u ∈ vs
    · have hrefused : ∀ fs, (drawn vs fs).addVertex u = .error (.duplicateVertex u) := fun fs =>
        addVertex_eq_error_iff.mpr ⟨by rwa [vertices_drawn], rfl⟩
      rw [hrefused, hrefused]
      rfl
    · rw [addVertex_drawn hs hu, addVertex_drawn hs₀ hu]
      exact ih (hs.addVertex hu)

namespace Config

/-- The graph that the vertices and edges of the configuration are added to. -/
theorem wellFormed_base {c : Config}
    (hbase : c.standard.elim (.ok {}) Family.build = .ok base) : base.WellFormed := by
  cases hstandard : c.standard with
  | none =>
    rw [hstandard] at hbase
    cases hbase
    exact wellFormed_empty
  | some family =>
    rw [hstandard] at hbase
    exact wellFormed_build hbase

/-- **Configurations are lists.** -/
theorem build_eq_ofParts {c : Config}
    (hbase : c.standard.elim (.ok {}) Family.build = .ok base) :
    c.build = ofParts (base.vertices ++ c.vertices.map Vertex.mk)
      (base.edges.map Edge.ends ++ c.edges.map (Prod.map Vertex.mk Vertex.mk)) := by
  have hbuild : c.build = (c.vertices.map Vertex.mk).foldlM addVertex base >>= fun g =>
      (c.edges.map (Prod.map Vertex.mk Vertex.mk)).foldlM (fun g (a, b) => g.addEdge a b) g := by
    unfold build
    simp only [List.foldlM_map]
    cases hstandard : c.standard with
    | none =>
      rw [hstandard] at hbase
      cases hbase
      rfl
    | some family =>
      rw [hstandard] at hbase
      exact congrArg (· >>= _) hbase
  obtain ⟨vs, es, hs, rfl⟩ := wellFormed_base hbase
  have hvertices : vs.foldlM addVertex {} = .ok (drawn vs []) :=
    foldlM_addVertex_eq_ok_iff.mpr ⟨hs.vertices_nodup, rfl⟩
  rw [hbuild, ← foldlM_addVertex_swap hs, vertices_drawn, edges_drawn]
  unfold ofParts
  rw [List.foldlM_append, hvertices, bind_assoc]
  show _ = (c.vertices.map Vertex.mk).foldlM addVertex (drawn vs []) >>= _
  simp only [List.foldlM_append]

end Config

/-- **Lists determine the graph.** Lists of vertices and of pairs make a graph just when they are
admissible. Neither the order of the lists nor the direction of the pairs decides on that, and the
graphs they make are equal, as graphs that can be made are when they have the same vertices and the
same unordered edges. Otherwise the error is that of the first vertex that is there already, or
else of the first pair that cannot be linked. The graph of a configuration is made, with its orders
and its errors, as if all vertices and then all edges were listed, those of the standard graph
first. -/
theorem parts_determine :
    (∀ vs ps, (∃ g, ofParts vs ps = .ok g) ↔ Admissible vs ps) ∧
    (∀ vs ps vs' ps', vs'.Perm vs → (unordered ps').Perm (unordered ps) →
      ((∃ g, ofParts vs' ps' = .ok g) ↔ ∃ g, ofParts vs ps = .ok g) ∧
        ∀ g g', ofParts vs ps = .ok g → ofParts vs' ps' = .ok g' → (g == g') = true) ∧
    (∀ g h : Graph, g.Reachable → h.Reachable → ((g == h) = true ↔
      (∀ v, v ∈ g.vertices ↔ v ∈ h.vertices) ∧ ∀ q, q ∈ g.pairsOf ↔ q ∈ h.pairsOf)) ∧
    (∀ vs ps e, ofParts vs ps = .error e ↔
      (∃ us v ws, vs = us ++ v :: ws ∧ us.Nodup ∧ v ∈ us ∧ e = .duplicateVertex v) ∨
        ∃ qs p rs g, ps = qs ++ p :: rs ∧ ofParts vs qs = .ok g ∧
          g.unlinkable? p.1 p.2 = some e) ∧
    ∀ (c : Config) (base : Graph), c.standard.elim (.ok {}) Family.build = .ok base →
      c.build = ofParts (base.vertices ++ c.vertices.map Vertex.mk)
        (base.edges.map Edge.ends ++ c.edges.map (Prod.map Vertex.mk Vertex.mk)) := by
  refine ⟨fun vs ps => ?_, fun vs ps vs' ps' hvs hps => ⟨?_, fun g g' hok hok' => ?_⟩,
    fun g h hg hh => ?_, fun vs ps e => ?_, fun c base hbase => ?_⟩
  · exact exists_ofParts_iff
  · rw [exists_ofParts_iff, exists_ofParts_iff]
    exact Admissible.perm_iff hvs hps
  · exact beq_of_ofParts hok hok' hvs hps
  · exact beq_iff hg.wellFormed hh.wellFormed
  · exact ofParts_eq_error_iff
  · exact Config.build_eq_ofParts hbase

/-- A triangle with a fourth vertex at one corner, from a configuration and from two lists. -/
theorem parts_determine_tail :
    let c : Config := { vertices := ["x"], edges := [("1", "x")], standard := some (.cycle 3) }
    let corner (i : Nat) : Vertex := .numbered i
    let x : Vertex := ⟨"x"⟩
    let vs := [corner 1, corner 2, corner 3, x]
    let ps := [(corner 1, corner 2), (corner 2, corner 3), (corner 1, corner 3), (corner 1, x)]
    let vs' := [x, corner 3, corner 1, corner 2]
    let ps' := [(x, corner 1), (corner 3, corner 2), (corner 1, corner 2), (corner 3, corner 1)]
    ∃ g g', c.build = .ok g ∧ ofParts vs ps = .ok g ∧ ofParts vs' ps' = .ok g' ∧
      (g == g') = true := by
  intro c corner x vs ps vs' ps'
  obtain ⟨hadmissible, horder, -, -, hbuild⟩ := parts_determine
  obtain ⟨base, hbase⟩ : ∃ base, (Family.cycle 3).build = .ok base := ⟨_, rfl⟩
  have hvs : vs'.Perm vs := by decide +kernel
  have hps : (unordered ps').Perm (unordered ps) := by decide +kernel
  have hlists : ((Family.cycle 3).build.map fun g => (g.vertices, g.edges.map Edge.ends)) =
      .ok (vs.take 3, ps.take 3) := by decide +kernel
  rw [hbase] at hlists
  obtain ⟨hvertices, hedges⟩ := Prod.mk.inj (Except.ok.inj hlists)
  have hc := hbuild c base hbase
  rw [hvertices, hedges] at hc
  obtain ⟨g, hok⟩ := (hadmissible vs ps).mpr
    ⟨by decide +kernel, by decide +kernel, by decide +kernel, by decide +kernel⟩
  obtain ⟨hmade, hequal⟩ := horder vs ps vs' ps' hvs hps
  obtain ⟨g', hok'⟩ := hmade.mpr ⟨g, hok⟩
  exact ⟨g, g', hc.trans hok, hok, hok', hequal g g' hok hok'⟩

end GraphLogic
