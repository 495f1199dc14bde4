import GraphLogic.Proofs.Formula.Semantics
import GraphLogic.Proofs.Graph.WellFormed
import Mathlib.Data.List.NodupEquivFin
import Mathlib.Data.Set.Function
import Mathlib.Data.Sym.Sym2
import Mathlib.Logic.Equiv.Fintype

/-!
# Isomorphic graphs

An isomorphism renames the vertices of one graph as those of another, such that edges become edges
and nothing else does.

**Theorem (`Isomorphism.exists_perm`).** Behind every isomorphism there is a permutation of the
ids: the vertex with the id `i` is renamed as the vertex with the permuted id. It keeps what edges
join, and so everything that can be said of ids.

**Theorem (`same_iff`).** Graphs are the same, as a comparison of their vertices and edges sees
it, when they have the same vertices and the same adjacency; comparing their rows, too, tells no
more of them apart (`beq_iff_same`). So between equal graphs the renaming that changes no name is
an isomorphism.
-/

namespace GraphLogic.Graph

variable {g h : Graph} {ρ : Vertex → Vertex} {a b v : Vertex} {i j : VertexId}
  {π : Equiv.Perm VertexId}

/-- The renaming is a bijection from the vertices of `g` to those of `h`, and it keeps adjacency. -/
structure Isomorphism (g h : Graph) (ρ : Vertex → Vertex) : Prop where
  bijOn : Set.BijOn ρ {v | v ∈ g.vertices} {v | v ∈ h.vertices}
  hasEdge_eq : ∀ a ∈ g.vertices, ∀ b ∈ g.vertices, h.hasEdge (ρ a) (ρ b) = g.hasEdge a b

/-! ## Permutations of ids -/

/-- The permutation takes the id of each vertex to the id of the renamed vertex, and other ids to
ids of no vertex. -/
def Follows (g h : Graph) (ρ : Vertex → Vertex) (π : Equiv.Perm VertexId) : Prop :=
  ∀ i, h.vertex? (π i) = (g.vertex? i).map ρ

theorem Isomorphism.exists_perm (hg : g.WellFormed) (hh : h.WellFormed)
    (hρ : g.Isomorphism h ρ) : ∃ π, Follows g h ρ π := by
  let named (k : Graph) (hk : k.WellFormed) : Fin k.vertices.length ≃ {v // v ∈ k.vertices} :=
    hk.simple.vertices_nodup.getEquiv
  let rename : {v // v ∈ g.vertices} ≃ {v // v ∈ h.vertices} := Set.BijOn.equiv ρ hρ.bijOn
  let onIds := (named g hg).trans (rename.trans (named h hh).symm)
  have hlength : g.vertices.length = h.vertices.length := by
    simpa using Fintype.card_congr onIds
  let σ : Equiv.Perm (Fin g.vertices.length) := onIds.trans (finCongr hlength.symm)
  refine ⟨σ.extendDomain Fin.equivSubtype, fun i => ?_⟩
  rw [vertex?_eq, vertex?_eq]
  by_cases hi : i < g.vertices.length
  · have hσ : σ.extendDomain Fin.equivSubtype i = onIds ⟨i, hi⟩ :=
      σ.extendDomain_apply_subtype Fin.equivSubtype hi
    have hname : h.vertices[onIds ⟨i, hi⟩] = ρ g.vertices[i] := by
      have hequiv : named h hh (onIds ⟨i, hi⟩) = rename (named g hg ⟨i, hi⟩) :=
        (named h hh).apply_symm_apply _
      exact congrArg Subtype.val hequiv
    rw [hσ, List.getElem?_eq_getElem hi, Option.map_some, ← hname]
    exact List.getElem?_eq_getElem _
  · have hσ : σ.extendDomain Fin.equivSubtype i = i :=
      σ.extendDomain_apply_not_subtype Fin.equivSubtype hi
    have hi' : ¬ i < h.vertices.length := hlength ▸ hi
    rw [hσ, List.getElem?_eq_none (Nat.le_of_not_lt hi),
      List.getElem?_eq_none (Nat.le_of_not_lt hi')]
    rfl

/-! ## What the permutation keeps -/

namespace Follows

theorem lt_vertexCount_iff (hπ : Follows g h ρ π) (i : VertexId) :
    π i < h.vertexCount ↔ i < g.vertexCount := by
  rw [Graph.lt_vertexCount_iff, Graph.lt_vertexCount_iff, hπ i]
  cases g.vertex? i <;> simp

theorem joined_iff (hg : g.WellFormed) (hh : h.WellFormed) (hρ : g.Isomorphism h ρ)
    (hπ : Follows g h ρ π) (i j : VertexId) : h.Joined (π i) (π j) ↔ g.Joined i j := by
  unfold Joined
  rw [hπ i, hπ j]
  cases hi : g.vertex? i with
  | none => simp
  | some a =>
    cases hj : g.vertex? j with
    | none => simp
    | some b =>
      have ha : a ∈ g.vertices := List.mem_of_getElem? (vertex?_eq g i ▸ hi)
      have hb : b ∈ g.vertices := List.mem_of_getElem? (vertex?_eq g j ▸ hj)
      have hab := hρ.hasEdge_eq a ha b hb
      rw [Bool.eq_iff_iff, hh.hasEdge_iff, hg.hasEdge_iff] at hab
      simpa using hab

end Follows

/-! ## Graphs that compare as the same -/

/-- The ends of the edges, as unordered pairs. -/
def pairsOf (g : Graph) : List (Sym2 Vertex) := g.edges.map fun e => s(e.source, e.target)

theorem joins_iff_pair {e : Edge} : e.joins a b = true ↔ s(e.source, e.target) = s(a, b) := by
  rw [Edge.joins_iff, Sym2.eq_iff]

theorem WellFormed.hasEdge_iff_pair (hg : g.WellFormed) :
    g.hasEdge a b = true ↔ s(a, b) ∈ g.pairsOf := by
  unfold pairsOf
  rw [hg.hasEdge_iff, List.mem_map]
  exact exists_congr fun e => and_congr_right fun _ => joins_iff_pair

theorem WellFormed.pairsOf_nodup (hg : g.WellFormed) : g.pairsOf.Nodup := by
  unfold pairsOf List.Nodup
  rw [List.pairwise_map]
  refine hg.simple.edges_apart.imp fun {e f} hef heq => ?_
  rw [joins_iff_pair.mpr heq] at hef
  cases hef

theorem all_contains_iff : g.edges.all h.edges.contains = true ↔ g.pairsOf ⊆ h.pairsOf := by
  have hpair : ∀ e : Edge, h.edges.contains e = true ↔ s(e.source, e.target) ∈ h.pairsOf := by
    intro e
    rw [contains_edge_iff, pairsOf, List.mem_map]
    exact exists_congr fun f => and_congr_right fun _ => joins_iff_pair
  rw [List.all_eq_true, pairsOf, List.subset_def, List.forall_mem_map]
  exact forall₂_congr fun e _ => hpair e

/-- Lists without repetitions have the same entries just when they have the same length and one
holds the other. -/
theorem length_eq_and_subset_iff {α : Type} {l l' : List α} (hl : l.Nodup) (hl' : l'.Nodup) :
    l.length = l'.length ∧ l ⊆ l' ↔ ∀ a, a ∈ l ↔ a ∈ l' := by
  constructor
  · rintro ⟨hlength, hsub⟩ a
    exact ((hl.subperm hsub).perm_of_length_le hlength.ge).mem_iff
  · intro hmem
    have hperm : l.Perm l' := (List.perm_ext_iff_of_nodup hl hl').mpr hmem
    exact ⟨hperm.length_eq, hperm.subset⟩

/-- **The same graph.** Graphs compare as the same just when they have the same vertices and the
same adjacency. -/
theorem same_iff (hg : g.WellFormed) (hh : h.WellFormed) :
    g.same h = true ↔
      (∀ v, v ∈ g.vertices ↔ v ∈ h.vertices) ∧ ∀ a b, g.hasEdge a b = h.hasEdge a b := by
  have hvertices : g.vertexCount = h.vertexCount ∧ g.vertices.all h.hasVertex = true ↔
      ∀ v, v ∈ g.vertices ↔ v ∈ h.vertices := by
    rw [← length_eq_and_subset_iff hg.simple.vertices_nodup hh.simple.vertices_nodup,
      vertexCount_eq, vertexCount_eq, List.all_eq_true, List.subset_def]
    exact and_congr_right fun _ => forall₂_congr fun v _ => hasVertex_iff
  have hedges : g.edgeCount = h.edgeCount ∧ g.edges.all h.edges.contains = true ↔
      ∀ a b, g.hasEdge a b = h.hasEdge a b := by
    have hcount : ∀ k : Graph, k.edgeCount = k.pairsOf.length := fun k => by
      rw [edgeCount, pairsOf, List.length_map]
    rw [hcount, hcount, all_contains_iff,
      length_eq_and_subset_iff hg.pairsOf_nodup hh.pairsOf_nodup, Sym2.forall]
    refine forall₂_congr fun a b => ?_
    rw [← hg.hasEdge_iff_pair, ← hh.hasEdge_iff_pair]
    exact Bool.eq_iff_iff.symm
  rw [← hvertices, ← hedges]
  simp [same, and_assoc]

theorem WellFormed.rows_eq (hg : g.WellFormed) :
    g.rows = g.vertices.map fun v => (v, across g.edges v) := by
  obtain ⟨vs, es, -, rfl⟩ := hg
  rw [vertices_drawn]
  rfl

theorem WellFormed.hasRow_iff (hg : g.WellFormed) {vs : List Vertex} :
    g.hasRow v vs = true ↔
      v ∈ g.vertices ∧ vs.length = (across g.edges v).length ∧ vs ⊆ across g.edges v := by
  unfold hasRow
  rw [hg.neighbors?_eq]
  by_cases hv : v ∈ g.vertices
  · simp only [if_pos hv, Bool.and_eq_true, beq_iff_eq, List.all_eq_true, List.contains_iff_mem]
    exact (and_iff_right hv).symm
  · rw [if_neg hv]
    exact iff_of_false Bool.false_ne_true fun h => hv h.1

/-- Comparing the rows, too, tells no more graphs apart. -/
theorem beq_iff_same (hg : g.WellFormed) (hh : h.WellFormed) :
    (g == h) = true ↔ g.same h = true := by
  have hbeq : (g == h) = (g.vertexCount == h.vertexCount &&
      g.vertices.all (fun v => h.hasRow v (across g.edges v)) &&
      g.edgeCount == h.edgeCount && g.edges.all h.edges.contains) := by
    show (_ && g.rows.all _ && _ && _) = _
    rw [hg.rows_eq, List.all_map]
    rfl
  rw [hbeq]
  constructor
  · simp only [same, Bool.and_eq_true, List.all_eq_true]
    rintro ⟨⟨⟨hcount, hrows⟩, hedges⟩, hall⟩
    have hvertices : ∀ v ∈ g.vertices, h.hasVertex v = true := fun v hv =>
      hasVertex_iff.mpr (hh.hasRow_iff.mp (hrows v hv)).1
    exact ⟨⟨⟨hcount, hvertices⟩, hedges⟩, hall⟩
  · intro hsame
    obtain ⟨hvertices, hadjacent⟩ := (same_iff hg hh).mp hsame
    simp only [same, Bool.and_eq_true, List.all_eq_true] at hsame ⊢
    obtain ⟨⟨⟨hcount, -⟩, hedges⟩, hall⟩ := hsame
    refine ⟨⟨⟨hcount, fun v hv => hh.hasRow_iff.mpr ⟨(hvertices v).mp hv, ?_⟩⟩, hedges⟩, hall⟩
    refine (length_eq_and_subset_iff (hg.simple.across_nodup v) (hh.simple.across_nodup v)).mpr ?_
    intro w
    rw [mem_across_iff, mem_across_iff, ← hg.hasEdge_iff, ← hh.hasEdge_iff, hadjacent]

/-- Equal graphs have the same vertices and the same adjacency. -/
theorem isomorphism_of_beq (hg : g.WellFormed) (hh : h.WellFormed) (hequal : (g == h) = true) :
    g.Isomorphism h id := by
  obtain ⟨hvertices, hedges⟩ := (same_iff hg hh).mp ((beq_iff_same hg hh).mp hequal)
  refine ⟨?_, fun a _ b _ => (hedges a b).symm⟩
  rw [show {v | v ∈ h.vertices} = {v | v ∈ g.vertices} from Set.ext fun v => (hvertices v).symm]
  exact Set.bijOn_id _

end GraphLogic.Graph
