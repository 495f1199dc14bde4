import GraphLogic.Proofs.Graph.InPlace
import GraphLogic.Proofs.Graph.Parts
import GraphLogic.Proofs.Graph.Path
import Mathlib.Combinatorics.SimpleGraph.Connectivity.Connected
import Mathlib.Data.List.Sym

/-!
# Complements

**Theorem (`Reachable.complemented`).** The complement of a graph that can be made has the same
vertices, and two of them are adjacent just when they are not adjacent in the graph. Together, the
two have as many edges as there are pairs of vertices; the complement of the complement is the
graph; and one of the two is connected.

The complement is made from two lists (`complement_eq`): the vertices, and the pairs of vertices
that are apart. The vertices of a graph make every pair just once (`admissible_pairs`), so that the
lists are admissible, and none of the additions is refused.
-/

namespace GraphLogic

namespace Graph

/-! ## Pairs of the entries of a list -/

section Pairs

variable {α β : Type} {as : List α} {a b : α}

theorem pairs_map (f : α → β) (as : List α) :
    pairs (as.map f) = (pairs as).map (Prod.map f f) := by
  induction as with
  | nil => rfl
  | cons a as ih =>
    rw [List.map_cons, pairs, pairs, ih, List.map_append, List.map_map, List.map_map]
    rfl

theorem length_pairs (as : List α) : (pairs as).length = as.length.choose 2 := by
  induction as with
  | nil => rfl
  | cons a as ih =>
    rw [pairs, List.length_append, List.length_map, ih, List.length_cons,
      Nat.choose_succ_succ', Nat.choose_one_right]

/-- Each pair of two entries comes once, in one of its directions. -/
theorem unordered_pairs_sublist (as : List α) : (unordered (pairs as)).Sublist as.sym2 := by
  induction as with
  | nil => exact List.Sublist.refl _
  | cons a as ih =>
    rw [pairs, unordered_append, List.sym2]
    refine List.Sublist.append ?_ ih
    unfold unordered
    rw [List.map_map, List.map_cons]
    exact List.sublist_cons_self ..

theorem mem_of_mem_pairs {p : α × α} (hp : p ∈ pairs as) : p.1 ∈ as ∧ p.2 ∈ as := by
  have hmem := (unordered_pairs_sublist as).subset (mem_unordered_iff.mpr (Or.inl hp))
  exact ⟨List.left_mem_of_mk_mem_sym2 hmem, List.right_mem_of_mk_mem_sym2 hmem⟩

theorem mem_unordered_pairs_iff (hnodup : as.Nodup) :
    s(a, b) ∈ unordered (pairs as) ↔ a ∈ as ∧ b ∈ as ∧ a ≠ b := by
  induction as with
  | nil => simp [pairs, unordered]
  | cons c as ih =>
    obtain ⟨hc, hnodup⟩ := List.nodup_cons.mp hnodup
    rw [pairs, unordered_append, List.mem_append, ih hnodup, mem_unordered_iff]
    simp only [List.mem_map, Prod.mk.injEq, List.mem_cons]
    constructor
    · rintro ((⟨x, hx, rfl, rfl⟩ | ⟨x, hx, rfl, rfl⟩) | ⟨ha, hb, hab⟩)
      · exact ⟨Or.inl rfl, Or.inr hx, fun heq => hc (heq ▸ hx)⟩
      · exact ⟨Or.inr hx, Or.inl rfl, fun heq => hc (heq ▸ hx)⟩
      · exact ⟨Or.inr ha, Or.inr hb, hab⟩
    · rintro ⟨rfl | ha, rfl | hb, hab⟩
      · exact absurd rfl hab
      · exact Or.inl (Or.inl ⟨b, hb, rfl, rfl⟩)
      · exact Or.inl (Or.inr ⟨a, ha, rfl, rfl⟩)
      · exact Or.inr ⟨ha, hb, hab⟩

/-- All pairs of distinct entries describe a simple graph. -/
theorem admissible_pairs (hnodup : as.Nodup) : Admissible as (pairs as) where
  vertices_nodup := hnodup
  ends_ne _ hp := ((mem_unordered_pairs_iff hnodup).mp (mem_unordered_iff.mpr (Or.inl hp))).2.2
  ends_mem _ hp := mem_of_mem_pairs hp
  unordered_nodup := hnodup.sym2.sublist (unordered_pairs_sublist as)

/-- The pairs by the indices of their entries. -/
theorem pairs_zipIdx (as : List α) (k : Nat) :
    pairs (as.zipIdx k) =
      (as.zipIdx k).flatMap fun p => ((as.zipIdx k).drop (p.2 + 1 - k)).map (p, ·) := by
  induction as generalizing k with
  | nil => rfl
  | cons a as ih =>
    rw [List.zipIdx_cons, pairs, List.flatMap_cons, ih (k + 1)]
    congr 1
    · rw [show k + 1 - k = 1 by omega, List.drop_one, List.tail_cons]
    · refine List.flatMap_congr fun p hp => ?_
      have := List.le_snd_of_mem_zipIdx hp
      rw [show p.2 + 1 - k = p.2 + 1 - (k + 1) + 1 by omega, List.drop_succ_cons]

end Pairs

/-! ## The lists of a complement -/

variable {g h : Graph} {a b v : Vertex} {i j : VertexId} {n : Nat}

/-- The pairs of vertices that are not adjacent. -/
def apart (g : Graph) : List (Vertex × Vertex) :=
  (pairs g.vertices).filter fun p => !g.hasEdge p.1 p.2

theorem complement_eq (g : Graph) :
    g.complement = (withVertices {} g.vertices).withEdges g.apart := by
  unfold complement withEdges apart
  rw [List.foldl_filter]
  refine List.foldl_ext _ _ _ fun h (a, b) _ => ?_
  dsimp only
  cases g.hasEdge a b <;> rfl

theorem WellFormed.admissible_apart (hg : g.WellFormed) : Admissible g.vertices g.apart :=
  (admissible_pairs hg.simple.vertices_nodup).sublist List.filter_sublist

theorem WellFormed.ends_of_hasEdge (hg : g.WellFormed) (hab : g.hasEdge a b = true) :
    a ∈ g.vertices ∧ b ∈ g.vertices ∧ a ≠ b := by
  obtain ⟨ha, hb⟩ := hg.mem_of_hasEdge hab
  obtain ⟨e, -, hj⟩ := hg.hasEdge_iff.mp hab
  exact ⟨ha, hb, Edge.ne_of_joins hj⟩

/-- Adjacency does not depend on the direction of a pair. -/
theorem WellFormed.mem_unordered_filter_iff (hg : g.WellFormed) (c : Bool) :
    s(a, b) ∈ unordered ((pairs g.vertices).filter fun p => g.hasEdge p.1 p.2 == c) ↔
      (a ∈ g.vertices ∧ b ∈ g.vertices ∧ a ≠ b) ∧ g.hasEdge a b = c := by
  rw [← mem_unordered_pairs_iff hg.simple.vertices_nodup, mem_unordered_iff, mem_unordered_iff,
    List.mem_filter, List.mem_filter, beq_iff_eq, beq_iff_eq, hg.hasEdge_comm b a, or_and_right]

theorem complement_parts (hg : g.WellFormed) :
    g.complement.vertices = g.vertices ∧ g.complement.edges.map Edge.ends = g.apart := by
  have hok := hg.admissible_apart.ofParts_eq
  rw [← complement_eq] at hok
  exact (ofParts_eq_ok_iff.mp hok).2

theorem hasEdge_complement (hg : g.WellFormed) :
    g.complement.hasEdge a b = true ↔
      (a ∈ g.vertices ∧ b ∈ g.vertices ∧ a ≠ b) ∧ g.hasEdge a b = false := by
  have hfilter : g.apart = (pairs g.vertices).filter fun p => g.hasEdge p.1 p.2 == false := by
    simp [apart]
  rw [(wellFormed_complement g).hasEdge_iff_pair, pairsOf_eq, (complement_parts hg).2, hfilter,
    hg.mem_unordered_filter_iff]

theorem vertex?_complement (hg : g.WellFormed) (i : VertexId) :
    g.complement.vertex? i = g.vertex? i := by
  rw [vertex?_eq, vertex?_eq, (complement_parts hg).1]

theorem vertexCount_complement (hg : g.WellFormed) :
    g.complement.vertexCount = g.vertexCount := by
  rw [vertexCount_eq, vertexCount_eq, (complement_parts hg).1]

theorem adjacent_complement (hg : g.WellFormed) (hi : i < g.vertexCount) (hj : j < g.vertexCount)
    (hij : i ≠ j) : g.complement.adjacent i j = !g.adjacent i j := by
  obtain ⟨a, ha⟩ := lt_vertexCount_iff.mp hi
  obtain ⟨b, hb⟩ := lt_vertexCount_iff.mp hj
  have hne : a ≠ b := by
    rintro rfl
    rw [← hg.vertexId?_eq_some_iff] at ha hb
    exact hij (Option.some_inj.mp (ha.symm.trans hb))
  have hmem : a ∈ g.vertices ∧ b ∈ g.vertices := by
    rw [vertex?_eq] at ha hb
    exact ⟨List.mem_of_getElem? ha, List.mem_of_getElem? hb⟩
  rw [hg.adjacent_eq_hasEdge ha hb, (wellFormed_complement g).adjacent_eq_hasEdge
    (vertex?_complement hg i ▸ ha) (vertex?_complement hg j ▸ hb), Bool.eq_iff_iff,
    hasEdge_complement hg, Bool.not_eq_true']
  exact and_iff_right ⟨hmem.1, hmem.2, hne⟩

/-! ## Numbers of edges -/

theorem edgeCount_eq (g : Graph) : g.edgeCount = g.pairsOf.length := by
  rw [edgeCount, pairsOf, List.length_map]

/-- The edges are the pairs of adjacent vertices. -/
theorem edgeCount_eq_length_filter (hg : g.WellFormed) :
    g.edgeCount = ((pairs g.vertices).filter fun p => g.hasEdge p.1 p.2).length := by
  have hpairs := (admissible_pairs hg.simple.vertices_nodup).sublist
    (List.filter_sublist (p := fun p => g.hasEdge p.1 p.2))
  have hperm : g.pairsOf.Perm
      (unordered ((pairs g.vertices).filter fun p => g.hasEdge p.1 p.2)) := by
    refine (List.perm_ext_iff_of_nodup hg.pairsOf_nodup hpairs.unordered_nodup).mpr fun q => ?_
    induction q using Sym2.inductionOn with | _ a b
    have hiff := hg.mem_unordered_filter_iff (a := a) (b := b) true
    simp only [beq_true] at hiff
    rw [hiff, ← hg.hasEdge_iff_pair]
    exact (and_iff_right_of_imp hg.ends_of_hasEdge).symm
  rw [edgeCount_eq, hperm.length_eq, unordered, List.length_map]

/-- A graph and its complement have all pairs of vertices between them. -/
theorem edgeCount_add_edgeCount_complement (hg : g.WellFormed) :
    g.edgeCount + g.complement.edgeCount = g.vertexCount.choose 2 := by
  have hcomplement : g.complement.edgeCount = g.apart.length := by
    rw [edgeCount, ← (complement_parts hg).2, List.length_map]
  rw [edgeCount_eq_length_filter hg, hcomplement, apart,
    ← List.length_eq_length_filter_add fun p : Vertex × Vertex => g.hasEdge p.1 p.2, length_pairs,
    vertexCount_eq]

/-! ## The complement of the complement -/

theorem complement_complement (hg : g.WellFormed) : (g.complement.complement == g) = true := by
  have hh := wellFormed_complement g
  rw [beq_iff_same (wellFormed_complement _) hg, same_iff (wellFormed_complement _) hg,
    (complement_parts hh).1, (complement_parts hg).1]
  refine ⟨fun _ => Iff.rfl, fun a b => ?_⟩
  rw [Bool.eq_iff_iff, hasEdge_complement hh, (complement_parts hg).1, ← Bool.not_eq_true,
    hasEdge_complement hg]
  constructor
  · rintro ⟨hab, hnot⟩
    by_contra hedge
    exact hnot ⟨hab, Bool.not_eq_true _ ▸ hedge⟩
  · intro hedge
    refine ⟨hg.ends_of_hasEdge hedge, fun ⟨_, hnot⟩ => ?_⟩
    rw [hedge] at hnot
    cases hnot

/-! ## Connectedness -/

/-- Adjacency of the ids. -/
def WellFormed.onIds (hg : g.WellFormed) : SimpleGraph (Fin g.vertexCount) where
  Adj i j := g.adjacent i j = true
  symm := ⟨fun i j hij => hg.adjacent_comm i j ▸ hij⟩
  loopless := ⟨fun i hi => Bool.false_ne_true (hg.adjacent_self i ▸ hi)⟩

theorem isConnected_of_preconnected (hg : g.WellFormed) (hn : g.vertexCount = n)
    {G : SimpleGraph (Fin n)} (hG : ∀ i j, G.Adj i j → g.adjacent i j = true)
    (hconnected : G.Preconnected) : g.isConnected = true := by
  rw [isConnected_iff hg, hn]
  intro i hi j hj
  have hij := (SimpleGraph.reachable_iff_reflTransGen _ _).mp (hconnected ⟨i, hi⟩ ⟨j, hj⟩)
  exact hij.lift Fin.val hG

/-- **One of the two is connected.** -/
theorem isConnected_or_isConnected_complement (hg : g.WellFormed) :
    g.isConnected = true ∨ g.complement.isConnected = true := by
  refine (SimpleGraph.connected_or_preconnected_compl hg.onIds).imp (fun h => ?_) fun h => ?_
  · exact isConnected_of_preconnected hg rfl (fun _ _ hij => hij) h.preconnected
  · refine isConnected_of_preconnected (wellFormed_complement g) (vertexCount_complement hg)
      (fun i j hij => ?_) h
    obtain ⟨hne, hnot⟩ := (SimpleGraph.compl_adj ..).mp hij
    rw [adjacent_complement hg i.isLt j.isLt (Fin.val_ne_of_ne hne), Bool.not_eq_true',
      Bool.eq_false_iff]
    exact hnot

end Graph

/-! ## Making the complement in place -/

namespace Edit

open GraphLogic.Graph

variable {g : Graph}

theorem attempt_addVertex_runOn (g : Graph) (v : Vertex) :
    ∃ added, (addVertex v).attempt.runOn g = (.ok added, g.orSelf (g.addVertex v)) := by
  show ∃ added, (Except.ok ((addVertex v).runOn g).1.toBool, ((addVertex v).runOn g).2) = _
  rw [addVertex_runOn]
  cases g.addVertex v with
  | error e => exact ⟨false, rfl⟩
  | ok h => exact ⟨true, rfl⟩

/-- One round of the inner loop. -/
def offer (g h : Graph) (p q : Vertex × VertexId) : Graph :=
  if g.adjacent p.2 q.2 then h else h.orSelf (h.addEdge p.1 q.1)

theorem wellFormed_offer {h : Graph} (hh : h.WellFormed) (g : Graph) (p q : Vertex × VertexId) :
    (offer g h p q).WellFormed := by
  unfold offer
  split
  · exact hh
  · exact hh.orSelf fun _ => hh.addEdge

/-- Both loops together go through the pairs of vertices, and ids tell the same of them as
labels. -/
theorem foldl_offer (hg : g.WellFormed) (h : Graph) :
    g.vertices.zipIdx.foldl
        (fun h p => (g.vertices.zipIdx.drop (p.2 + 1)).foldl (fun h q => offer g h p q) h) h =
      (pairs g.vertices).foldl
        (fun h (a, b) => if g.hasEdge a b then h else h.orSelf (h.addEdge a b)) h := by
  have hpairs : (pairs g.vertices.zipIdx).map (Prod.map Prod.fst Prod.fst) = pairs g.vertices := by
    rw [← pairs_map, List.zipIdx_map_fst]
  have hstep : ∀ h, ∀ r ∈ pairs g.vertices.zipIdx, offer g h r.1 r.2 =
      if g.hasEdge r.1.1 r.2.1 then h else h.orSelf (h.addEdge r.1.1 r.2.1) := by
    rintro h ⟨⟨a, i⟩, ⟨b, j⟩⟩ hr
    obtain ⟨hi, hj⟩ := mem_of_mem_pairs hr
    rw [List.mem_zipIdx_iff_getElem?, ← vertex?_eq] at hi hj
    unfold offer
    rw [hg.adjacent_eq_hasEdge hi hj]
  rw [← hpairs, List.foldl_map]
  refine Eq.trans ?_ (List.foldl_ext _ _ h hstep)
  rw [pairs_zipIdx, List.foldl_flatMap]
  simp only [List.foldl_map, Nat.sub_zero]

/-- **The complement in place.** Making the complement id by id makes the complement. -/
theorem complementOf_runOn (hg : g.WellFormed) :
    (complementOf g).runOn {} = (.ok (), g.complement) := by
  have hvertices := runOn_forM (P := WellFormed) (m := fun v => do let _ ← (addVertex v).attempt)
    (f := fun h v => h.orSelf (h.addVertex v))
    (fun h v hh => by
      obtain ⟨added, hrun⟩ := attempt_addVertex_runOn h v
      rw [runOn_bind, hrun]
      rfl)
    (fun h v hh => hh.orSelf fun _ => hh.addVertex) wellFormed_empty g.vertices
  have hinner := fun p h (hh : WellFormed h) => runOn_forM (P := WellFormed)
    (m := fun q : Vertex × VertexId => do
      if !g.adjacent p.2 q.2 then
        let _ ← (addEdge p.1 q.1).attempt)
    (f := fun h q => offer g h p q)
    (fun h q hh => by
      obtain ⟨added, hrun⟩ := attempt_addEdge_runOn hh p.1 q.1
      unfold offer
      cases g.adjacent p.2 q.2
      · show (do let _ ← (addEdge p.1 q.1).attempt : Edit Unit).runOn h = _
        rw [runOn_bind, hrun]
        rfl
      · rfl)
    (fun h q hh => wellFormed_offer hh g p q) hh (g.vertices.zipIdx.drop (p.2 + 1))
  have houter := fun h (hh : WellFormed h) => runOn_forM (P := WellFormed)
    (fun h p hh => hinner p h hh)
    (fun h p hh => hh.foldl (fun h q hh => wellFormed_offer hh g p q) _) hh g.vertices.zipIdx
  unfold complementOf
  rw [runOn_bind, hvertices]
  refine (houter _ ?_).trans ?_
  · exact wellFormed_empty.withVertices g.vertices
  · rw [foldl_offer hg]
    rfl

end Edit

namespace Graph

/-- **Complements.** For every graph that can be made, making the complement id by id succeeds. It
has the same vertices in the same order, and two of them are adjacent in it just when they are not
adjacent in the graph. The edges of both are as many as there are pairs of vertices; the complement
of the complement is equal to the graph; and one of the two is connected. -/
theorem Reachable.complemented {g : Graph} (hg : g.Reachable) :
    (Edit.complementOf g).runOn {} = (.ok (), g.complement) ∧
    g.complement.vertices = g.vertices ∧
    (∀ i < g.vertexCount, ∀ j < g.vertexCount, i ≠ j →
      g.complement.adjacent i j = !g.adjacent i j) ∧
    g.edgeCount + g.complement.edgeCount = g.vertexCount * (g.vertexCount - 1) / 2 ∧
    (g.complement.complement == g) = true ∧
    (g.isConnected = true ∨ g.complement.isConnected = true) := by
  have hwf := hg.wellFormed
  refine ⟨?_, ?_, fun i hi j hj hij => ?_, ?_, ?_, ?_⟩
  · exact Edit.complementOf_runOn hwf
  · exact (complement_parts hwf).1
  · exact adjacent_complement hwf hi hj hij
  · rw [edgeCount_add_edgeCount_complement hwf, Nat.choose_two_right]
  · exact complement_complement hwf
  · exact isConnected_or_isConnected_complement hwf

/-- A path of three vertices beside a fourth one is not connected, so that its complement is. -/
theorem Reachable.complemented_path :
    let changes : List Change := [.addVertex ⟨"a"⟩, .addVertex ⟨"b"⟩, .addVertex ⟨"c"⟩,
      .addVertex ⟨"d"⟩, .addEdge ⟨"b"⟩ ⟨"a"⟩, .addEdge ⟨"b"⟩ ⟨"c"⟩]
    let g := changes.foldl Graph.change {}
    g.complement.adjacent 0 2 = true ∧ g.complement.adjacent 0 1 = false ∧
      g.complement.edgeCount = 4 ∧ g.complement.isConnected = true := by
  intro changes g
  have hg : g.Reachable := Reachable.empty.changes changes
  have hcount : g.vertexCount = 4 := by decide
  have hedges : g.edgeCount = 2 := by decide
  have hapart : g.isConnected = false := by decide +kernel
  have h02 : g.adjacent 0 2 = false := by decide
  have h01 : g.adjacent 0 1 = true := by decide
  obtain ⟨-, -, hadjacent, hpairs, -, hconnected⟩ := Reachable.complemented hg
  rw [hcount] at hadjacent hpairs
  refine ⟨?_, ?_, by omega, hconnected.resolve_left (by simp [hapart])⟩
  · rw [hadjacent 0 (by decide) 2 (by decide) (by decide), h02]
    rfl
  · rw [hadjacent 0 (by decide) 1 (by decide) (by decide), h01]
    rfl

end Graph

end GraphLogic
