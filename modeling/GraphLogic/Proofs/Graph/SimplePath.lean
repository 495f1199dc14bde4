import GraphLogic.Proofs.Graph.Path
import Mathlib.Combinatorics.SimpleGraph.Acyclic

/-!
# Simple paths and cycles

Simple paths and cycles of a graph are lists of its vertices (`IsPath`, `IsCycle`). They are the
paths and cycles of the simple graph that the edges make on all labels (`net`), where the walks of
Mathlib are available: `isPath_iff_exists_walk`, `isAcyclic_iff_no_cycle`. What paths join is
reachable there (`exists_isPath_iff`), in terms of ids as well (`linked_iff_reachable`).
-/

namespace GraphLogic.Graph

variable {g : Graph} {es : List Edge} {a b c v w : Vertex} {p : List Vertex} {i j : VertexId}

/-- The vertices along a way from `a` to `b` that passes none of them twice. -/
structure IsPath (g : Graph) (a b : Vertex) (p : List Vertex) : Prop where
  head : p.head? = some a
  last : p.getLast? = some b
  nodup : p.Nodup
  chain : p.IsChain fun v w => g.hasEdge v w = true

/-- At least three vertices, each adjacent to the next and the last to the first. -/
structure IsCycle (g : Graph) (p : List Vertex) : Prop where
  three_le : 3 ≤ p.length
  nodup : p.Nodup
  chain : p.IsChain fun v w => g.hasEdge v w = true
  closed : ∀ a b, p.head? = some a → p.getLast? = some b → g.hasEdge b a = true

/-- The edges as a simple graph, in which labels of no vertex are isolated. -/
def net (es : List Edge) : SimpleGraph Vertex where
  Adj a b := ∃ e ∈ es, e.joins a b = true
  symm := ⟨fun _ _ ⟨e, he, hj⟩ => ⟨e, he, Edge.joins_comm e .. ▸ hj⟩⟩
  loopless := ⟨fun _ ⟨e, _, hj⟩ => by
    rcases Edge.joins_iff.mp hj with ⟨h, h'⟩ | ⟨h, h'⟩ <;> exact e.distinct (h.trans h'.symm)⟩

theorem WellFormed.adj_iff (hg : g.WellFormed) :
    (net g.edges).Adj a b ↔ g.hasEdge a b = true :=
  hg.hasEdge_iff.symm

/-! ## Paths as walks -/

theorem isPath_iff_exists_walk (hg : g.WellFormed) :
    g.IsPath a b p ↔ ∃ w : (net g.edges).Walk a b, w.IsPath ∧ w.support = p := by
  constructor
  · rintro ⟨hhead, hlast, hnodup, hchain⟩
    have hne : p ≠ [] := by
      rintro rfl
      cases hhead
    have hadj : p.IsChain (net g.edges).Adj := hchain.imp fun v w h => hg.adj_iff.mpr h
    obtain rfl : p.head hne = a := by rwa [List.head?_eq_some_head hne, Option.some_inj] at hhead
    obtain rfl : p.getLast hne = b := by
      rwa [List.getLast?_eq_some_getLast hne, Option.some_inj] at hlast
    have hsupport := SimpleGraph.Walk.support_ofSupport hne hadj
    exact ⟨.ofSupport p hne hadj, by rwa [SimpleGraph.Walk.isPath_def, hsupport], hsupport⟩
  · rintro ⟨w, hw, rfl⟩
    refine ⟨?_, ?_, hw.support_nodup, w.isChain_adj_support.imp fun v w h => hg.adj_iff.mp h⟩
    · rw [List.head?_eq_some_head w.support_ne_nil, w.head_support]
    · rw [List.getLast?_eq_some_getLast w.support_ne_nil, w.getLast_support]

/-- A path joins what is reachable. -/
theorem exists_isPath_iff (hg : g.WellFormed) :
    (∃ p, g.IsPath a b p) ↔ (net g.edges).Reachable a b := by
  classical
  constructor
  · rintro ⟨p, hp⟩
    obtain ⟨w, -, -⟩ := (isPath_iff_exists_walk hg).mp hp
    exact w.reachable
  · rintro ⟨w⟩
    exact ⟨_, (isPath_iff_exists_walk hg).mpr ⟨w.bypass, w.bypass_isPath, rfl⟩⟩

theorem isPath_pair (hab : g.hasEdge a b = true) (hne : a ≠ b) : g.IsPath a b [a, b] where
  head := rfl
  last := rfl
  nodup := by simpa
  chain := by simpa

/-! ## Cycles -/

/-- Without its last edge a cycle is a path between the ends of that edge. -/
theorem IsCycle.exists_isPath (h : g.IsCycle p) :
    ∃ a b, g.IsPath a b p ∧ g.hasEdge b a = true := by
  have hne : p ≠ [] := by
    rintro rfl
    exact absurd h.three_le (by decide)
  have hhead := List.head?_eq_some_head hne
  have hlast := List.getLast?_eq_some_getLast hne
  exact ⟨_, _, ⟨hhead, hlast, h.nodup, h.chain⟩, h.closed _ _ hhead hlast⟩

/-- A cycle is a second path between the ends of its last edge. -/
theorem no_cycle_of_unique (hg : g.WellFormed)
    (h : ∀ a b p q, g.hasEdge a b = true → g.IsPath a b p → g.IsPath a b q → p = q)
    (p : List Vertex) : ¬ g.IsCycle p := by
  intro hcycle
  obtain ⟨a, b, hp, hba⟩ := hcycle.exists_isPath
  have hab : g.hasEdge a b = true := hg.hasEdge_comm b a ▸ hba
  have hne : a ≠ b := (hg.adj_iff.mpr hab).ne
  have hthree := hcycle.three_le
  rw [h a b p [a, b] hab hp (isPath_pair hab hne)] at hthree
  exact absurd hthree (by simp)

theorem isPath_unique {q : List Vertex} (hg : g.WellFormed) (hacyclic : (net g.edges).IsAcyclic)
    (hp : g.IsPath a b p) (hq : g.IsPath a b q) : p = q := by
  obtain ⟨w, hw, rfl⟩ := (isPath_iff_exists_walk hg).mp hp
  obtain ⟨w', hw', rfl⟩ := (isPath_iff_exists_walk hg).mp hq
  have heq := (hacyclic.subsingleton_path a b).elim ⟨w, hw⟩ ⟨w', hw'⟩
  rw [Subtype.mk.inj heq]

theorem isAcyclic_iff_no_cycle (hg : g.WellFormed) :
    (net g.edges).IsAcyclic ↔ ∀ p, ¬ g.IsCycle p := by
  constructor
  · intro hacyclic
    exact no_cycle_of_unique hg fun _ _ _ _ _ hp hq => isPath_unique hg hacyclic hp hq
  · intro hnone v w hw
    cases w with
    | nil => exact absurd rfl hw.ne_nil
    | @cons _ c _ hvc rest =>
      -- The vertices of the rest, which ends where the first edge began.
      have hlength := hw.three_le_length
      obtain ⟨hrest, -⟩ := (SimpleGraph.Walk.cons_isCycle_iff rest hvc).mp hw
      have hp := (isPath_iff_exists_walk hg).mpr ⟨rest, hrest, rfl⟩
      refine hnone rest.support ⟨?_, hp.nodup, hp.chain, fun a b ha hb => ?_⟩
      · rwa [SimpleGraph.Walk.length_support, ← SimpleGraph.Walk.length_cons hvc]
      · obtain rfl : c = a := Option.some_inj.mp (hp.head.symm.trans ha)
        obtain rfl : v = b := Option.some_inj.mp (hp.last.symm.trans hb)
        exact hg.adj_iff.mp hvc

/-! ## Ids -/

theorem linked_iff_reachable (hg : g.WellFormed) (hi : g.vertex? i = some a)
    (hj : g.vertex? j = some b) : g.Linked i j ↔ (net g.edges).Reachable a b := by
  constructor
  · intro hij
    induction hij generalizing b with
    | refl =>
      obtain rfl : a = b := Option.some_inj.mp (hi.symm.trans hj)
      exact .refl a
    | @tail k l _ hkl ih =>
      obtain ⟨c, hc⟩ := lt_vertexCount_iff.mp (adjacent_lt hkl).1
      rw [hg.adjacent_eq_hasEdge hc hj] at hkl
      exact (ih hc).trans (hg.adj_iff.mpr hkl).reachable
  · rw [SimpleGraph.reachable_iff_reflTransGen]
    intro hab
    induction hab generalizing j with
    | refl =>
      obtain rfl : i = j := by
        rw [← hg.vertexId?_eq_some_iff] at hi hj
        exact Option.some_inj.mp (hi.symm.trans hj)
      exact .refl i
    | @tail c b _ hcb ih =>
      obtain ⟨e, he, hjoins⟩ := id hcb
      obtain ⟨k, hk⟩ := exists_vertexId?_iff.mpr (hg.simple.mem_of_joins he hjoins).1
      rw [hg.vertexId?_eq_some_iff] at hk
      refine (ih hk).tail ?_
      rw [hg.adjacent_eq_hasEdge hk hj]
      exact hg.adj_iff.mp hcb

end GraphLogic.Graph
