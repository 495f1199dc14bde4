import GraphLogic.Proofs.Graph.Elimination
import GraphLogic.Proofs.Graph.Forest
import GraphLogic.Proofs.Graph.Label

/-!
# Contraction of an edge

**Theorem (`Reachable.contraction`).** In every graph that can be made, the ends of an edge can be
merged. The merged vertex takes the first label of a search that ends within as many rounds as there
are other vertices; it is adjacent to what either end was adjacent to, and nothing else changes. One
edge is lost, and one more for each common neighbour of the ends, but no component.

A contraction sends both ends to the merged vertex and every other vertex to itself (`mergeInto`).
Adjacent vertices become adjacent ones, but for the two ends, which become the same
(`mergeInto_cases`); and what is adjacent afterwards comes from adjacent vertices
(`exists_of_hasEdge`). So vertices are joined by a path just when what they become is
(`reachable_mergeInto_iff`), and the components correspond.
-/

namespace GraphLogic.Graph

variable {g h : Graph} {a b m u v w x y : Vertex}

/-! ## Lists of vertices and edges -/

theorem mem_verticesBut {vs : List Vertex} : v ∈ verticesBut vs a b ↔ v ∈ vs ∧ v ≠ a ∧ v ≠ b := by
  simp [verticesBut, and_assoc, and_comm]

theorem length_star {us : List Vertex} (hm : m ∉ us) : (star m us hm).length = us.length := by
  simp [star]

/-- The edges at a vertex are as many as the vertices across. -/
theorem length_filter_contains (es : List Edge) (v : Vertex) :
    (es.filter fun e => !e.contains v).length + (across es v).length = es.length := by
  have hends : (across es v).length = (es.filter (·.contains v)).length := by
    rw [across, List.length_filterMap_eq_countP, List.countP_eq_length_filter]
    refine congrArg _ (List.filter_congr fun e _ => ?_)
    rw [Bool.eq_iff_iff, Option.isSome_iff_ne_none, ne_eq, Edge.across?_eq_none_iff,
      Bool.not_eq_false]
  rw [hends, Nat.add_comm]
  exact (List.length_eq_length_filter_add (Edge.contains · v)).symm

/-- The vertices adjacent to both. -/
def commonNeighbors (g : Graph) (a b : Vertex) : List Vertex :=
  g.vertices.filter fun w => g.hasEdge a w && g.hasEdge b w

theorem card_quotient_comap {α β : Type} {f : α → β} (hf : Function.Surjective f)
    (r : Setoid β) : Nat.card (Quotient (r.comap f)) = Nat.card (Quotient r) := by
  rw [Setoid.comap_eq]
  exact Nat.card_congr (Setoid.quotientKerEquivOfSurjective _ (Quotient.mk''_surjective.comp hf))

/-! ## What a contraction leaves -/

/-- What a vertex becomes when the ends `a` and `b` of an edge are merged into `m`. -/
def mergeInto (a b m v : Vertex) : Vertex := if v = a ∨ v = b then m else v

/-- The parts of the graph after a contraction. -/
structure ContractionParts (g : Graph) (a b m : Vertex) (h : Graph) : Prop where
  before : g.WellFormed
  edge : g.hasEdge a b = true
  after : h.WellFormed
  merged_eq : m = merged g.vertices a b
  vertices_eq : h.vertices = verticesBut g.vertices a b ++ [m]
  edges_eq : ∃ hm : m ∉ around g.edges a b,
    h.edges = edgesBut g.edges a b ++ star m (around g.edges a b) hm

theorem exists_contractionParts (hg : g.WellFormed) (hab : g.hasEdge a b = true) :
    ∃ m h, g.contractEdge a b = .ok (m, h) ∧ g.ContractionParts a b m h := by
  obtain ⟨vs, es, hs, rfl⟩ := hg
  have hok := contractEdge_drawn hs (hs.wellFormed.hasEdge_iff.mp hab)
  refine ⟨_, _, hok, hs.wellFormed, hab, hs.wellFormed.contractEdge hok, ?_, ?_, ?_⟩
  · rw [vertices_drawn]
  · rw [vertices_drawn, vertices_drawn]
  · exact ⟨_, rfl⟩

namespace ContractionParts

variable (hc : g.ContractionParts a b m h)
include hc

theorem ne : a ≠ b := (hc.before.adj_iff.mpr hc.edge).ne

theorem mem_around_iff :
    v ∈ around g.edges a b ↔
      (g.hasEdge a v = true ∨ g.hasEdge b v = true) ∧ v ≠ a ∧ v ≠ b := by
  rw [mem_around, hc.before.mem_across_iff_hasEdge, hc.before.mem_across_iff_hasEdge]

theorem not_mem : m ∉ verticesBut g.vertices a b := by
  rw [hc.merged_eq]
  exact Graph.merged_not_mem g.vertices a b

/-- The merged vertex is none of the others. -/
theorem ne_merged (hv : v ∈ g.vertices) (ha : v ≠ a) (hb : v ≠ b) : v ≠ m := by
  rintro rfl
  exact hc.not_mem (mem_verticesBut.mpr ⟨hv, ha, hb⟩)

/-- There are no more primes than other vertices. -/
theorem exists_label :
    ∃ k ≤ (verticesBut g.vertices a b).length, m.label = primed (a.label ++ b.label) k ∧
      ∀ j < k, (⟨primed (a.label ++ b.label) j⟩ : Vertex) ∈ verticesBut g.vertices a b := by
  obtain ⟨k, hk, hlabel, hbefore⟩ := exists_freshLabel_eq
    ((verticesBut g.vertices a b).map (·.label)) (a.label ++ b.label)
  rw [List.length_map] at hk
  refine ⟨k, hk, by rw [hc.merged_eq, merged, hlabel], ?_⟩
  intro j hj
  obtain ⟨v, hv, heq⟩ := List.mem_map.mp (hbefore j hj)
  rwa [← heq]

/-- Adjacency after a contraction: as before between the others, and new at the merged vertex. -/
theorem hasEdge_iff :
    h.hasEdge u v = true ↔
      (g.hasEdge u v = true ∧ (u ≠ a ∧ u ≠ b) ∧ v ≠ a ∧ v ≠ b) ∨
        (u = m ∧ v ∈ around g.edges a b) ∨ (v = m ∧ u ∈ around g.edges a b) := by
  obtain ⟨hm, hedges⟩ := hc.edges_eq
  have hkept : (∃ e ∈ edgesBut g.edges a b, e.joins u v = true) ↔
      g.hasEdge u v = true ∧ (u ≠ a ∧ u ≠ b) ∧ v ≠ a ∧ v ≠ b := by
    have hends : ∀ e : Edge, e.joins u v = true →
        (e ∈ edgesBut g.edges a b ↔ e ∈ g.edges ∧ (u ≠ a ∧ u ≠ b) ∧ v ≠ a ∧ v ≠ b) := by
      intro e hj
      simp only [edgesBut, List.mem_filter, Bool.not_eq_true', Bool.eq_false_iff, ne_eq,
        Edge.contains_iff_of_joins hj]
      tauto
    rw [hc.before.hasEdge_iff]
    constructor
    · rintro ⟨e, he, hj⟩
      obtain ⟨he, huv⟩ := (hends e hj).mp he
      exact ⟨⟨e, he, hj⟩, huv⟩
    · rintro ⟨⟨e, he, hj⟩, huv⟩
      exact ⟨e, (hends e hj).mpr ⟨he, huv⟩, hj⟩
  have hnew : (∃ e ∈ star m (around g.edges a b) hm, e.joins u v = true) ↔
      (u = m ∧ v ∈ around g.edges a b) ∨ (v = m ∧ u ∈ around g.edges a b) := by
    constructor
    · rintro ⟨e, he, hj⟩
      obtain ⟨hsource, htarget⟩ := mem_star.mp he
      rcases Edge.joins_iff.mp hj with ⟨rfl, rfl⟩ | ⟨rfl, rfl⟩
      · exact Or.inl ⟨hsource, htarget⟩
      · exact Or.inr ⟨hsource, htarget⟩
    · rintro (⟨rfl, hv⟩ | ⟨rfl, hu⟩)
      · refine ⟨⟨u, v, fun heq => hm (heq ▸ hv)⟩, mem_star.mpr ⟨rfl, hv⟩, ?_⟩
        simp [Edge.joins_iff]
      · refine ⟨⟨v, u, fun heq => hm (heq ▸ hu)⟩, mem_star.mpr ⟨rfl, hu⟩, ?_⟩
        simp [Edge.joins_iff]
  rw [hc.after.hasEdge_iff, hedges, ← hkept, ← hnew]
  simp only [List.mem_append, or_and_right, exists_or]

theorem hasEdge_kept (hu : u ∈ verticesBut g.vertices a b) (hv : v ∈ verticesBut g.vertices a b) :
    h.hasEdge u v = g.hasEdge u v := by
  obtain ⟨hu, hua, hub⟩ := mem_verticesBut.mp hu
  obtain ⟨hv, hva, hvb⟩ := mem_verticesBut.mp hv
  have hum := hc.ne_merged hu hua hub
  have hvm := hc.ne_merged hv hva hvb
  rw [Bool.eq_iff_iff, hc.hasEdge_iff]
  simp [hua, hub, hva, hvb, hum, hvm]

theorem hasEdge_merged :
    h.hasEdge m w = true ↔
      (g.hasEdge a w = true ∨ g.hasEdge b w = true) ∧ w ≠ a ∧ w ≠ b := by
  obtain ⟨hm, -⟩ := hc.edges_eq
  rw [hc.hasEdge_iff, ← hc.mem_around_iff]
  constructor
  · rintro (⟨hmw, ⟨hma, hmb⟩, -⟩ | ⟨-, hw⟩ | ⟨-, hmem⟩)
    · exact absurd rfl (hc.ne_merged (hc.before.mem_of_hasEdge hmw).1 hma hmb)
    · exact hw
    · exact absurd hmem hm
  · exact fun hw => Or.inr (Or.inl ⟨rfl, hw⟩)

/-! ## Components -/

/-- Adjacent vertices are merged, or adjacent afterwards. -/
theorem mergeInto_cases (huv : g.hasEdge u v = true) :
    mergeInto a b m u = mergeInto a b m v ∨
      h.hasEdge (mergeInto a b m u) (mergeInto a b m v) = true := by
  have hvu : g.hasEdge v u = true := by rwa [hc.before.hasEdge_comm]
  rw [hc.hasEdge_iff, hc.mem_around_iff, hc.mem_around_iff]
  by_cases hu : u = a ∨ u = b <;> by_cases hv : v = a ∨ v = b
  · left
    rw [mergeInto, mergeInto, if_pos hu, if_pos hv]
  · right; right; left
    rw [mergeInto, mergeInto, if_pos hu, if_neg hv]
    refine ⟨rfl, ?_, not_or.mp hv⟩
    rcases hu with rfl | rfl
    · exact Or.inl huv
    · exact Or.inr huv
  · right; right; right
    rw [mergeInto, mergeInto, if_neg hu, if_pos hv]
    refine ⟨rfl, ?_, not_or.mp hu⟩
    rcases hv with rfl | rfl
    · exact Or.inl hvu
    · exact Or.inr hvu
  · right; left
    rw [mergeInto, mergeInto, if_neg hu, if_neg hv]
    exact ⟨huv, not_or.mp hu, not_or.mp hv⟩

/-- What is adjacent afterwards comes from adjacent vertices. -/
theorem exists_of_hasEdge (hxy : h.hasEdge x y = true) :
    ∃ u v, g.hasEdge u v = true ∧ mergeInto a b m u = x ∧ mergeInto a b m v = y := by
  have hother : ∀ {w}, w ≠ a ∧ w ≠ b → mergeInto a b m w = w := by
    intro w hw
    rw [mergeInto, if_neg (not_or.mpr hw)]
  have hend : ∀ {w}, w ∈ around g.edges a b →
      ∃ u, g.hasEdge u w = true ∧ mergeInto a b m u = m ∧ mergeInto a b m w = w := by
    intro w hw
    obtain ⟨haw | hbw, hne⟩ := hc.mem_around_iff.mp hw
    · exact ⟨a, haw, by simp [mergeInto], hother hne⟩
    · exact ⟨b, hbw, by simp [mergeInto], hother hne⟩
  rcases hc.hasEdge_iff.mp hxy with ⟨hxy, hx, hy⟩ | ⟨rfl, hy⟩ | ⟨rfl, hx⟩
  · exact ⟨x, y, hxy, hother hx, hother hy⟩
  · obtain ⟨u, huy, hu, hy⟩ := hend hy
    exact ⟨u, y, huy, hu, hy⟩
  · obtain ⟨u, hux, hu, hx⟩ := hend hx
    exact ⟨x, u, by rwa [hc.before.hasEdge_comm], hx, hu⟩

/-- Only the ends of the edge are merged. -/
theorem reachable_of_mergeInto_eq (hu : u ∈ g.vertices) (hv : v ∈ g.vertices)
    (heq : mergeInto a b m u = mergeInto a b m v) : (net g.edges).Reachable u v := by
  have hab : (net g.edges).Reachable a b := (hc.before.adj_iff.mpr hc.edge).reachable
  have hends : ∀ {w}, w = a ∨ w = b → (net g.edges).Reachable a w := by
    rintro w (rfl | rfl)
    · exact .refl w
    · exact hab
  have hmixed : ∀ {w}, w ∈ g.vertices → ¬ (w = a ∨ w = b) → w ≠ m := by
    intro w hw hne
    obtain ⟨ha, hb⟩ := not_or.mp hne
    exact hc.ne_merged hw ha hb
  unfold mergeInto at heq
  split_ifs at heq with h₁ h₂ h₂
  · exact (hends h₁).symm.trans (hends h₂)
  · exact absurd heq.symm (hmixed hv h₂)
  · exact absurd heq (hmixed hu h₁)
  · rw [heq]

/-- **Contraction keeps what is joined.** Vertices are joined by a path before just when what they
become is joined by one afterwards. -/
theorem reachable_mergeInto_iff (hu : u ∈ g.vertices) (hv : v ∈ g.vertices) :
    (net h.edges).Reachable (mergeInto a b m u) (mergeInto a b m v) ↔
      (net g.edges).Reachable u v := by
  constructor
  · intro hreach
    rw [SimpleGraph.reachable_iff_reflTransGen] at hreach
    -- Every vertex that becomes the end of the way so far is joined with `u`.
    suffices hall : ∀ {z}, Relation.ReflTransGen (net h.edges).Adj (mergeInto a b m u) z →
        ∀ w ∈ g.vertices, mergeInto a b m w = z → (net g.edges).Reachable u w from
      hall hreach v hv rfl
    intro z hway
    induction hway with
    | refl =>
      intro w hw heq
      exact hc.reachable_of_mergeInto_eq hu hw heq.symm
    | @tail x y _ hxy ih =>
      intro w hw heq
      obtain ⟨c, d, hcd, hcx, hdy⟩ := hc.exists_of_hasEdge (hc.after.adj_iff.mp hxy)
      obtain ⟨hcmem, hdmem⟩ := hc.before.mem_of_hasEdge hcd
      have hstep := (hc.before.adj_iff.mpr hcd).reachable
      have hlast := hc.reachable_of_mergeInto_eq hdmem hw (hdy.trans heq.symm)
      exact ((ih c hcmem hcx).trans hstep).trans hlast
  · intro hreach
    rw [SimpleGraph.reachable_iff_reflTransGen] at hreach
    clear hv
    induction hreach with
    | refl => exact .refl _
    | @tail c d _ hcd ih =>
      rcases hc.mergeInto_cases (hc.before.adj_iff.mp hcd) with heq | hadj
      · rwa [← heq]
      · exact ih.trans (hc.after.adj_iff.mpr hadj).reachable

theorem mergeInto_mem (hv : v ∈ g.vertices) : mergeInto a b m v ∈ h.vertices := by
  rw [hc.vertices_eq]
  unfold mergeInto
  split_ifs with hends
  · simp
  · obtain ⟨ha, hb⟩ := not_or.mp hends
    exact List.mem_append_left _ (mem_verticesBut.mpr ⟨hv, ha, hb⟩)

theorem exists_mergeInto_eq (hx : x ∈ h.vertices) :
    ∃ v ∈ g.vertices, mergeInto a b m v = x := by
  rw [hc.vertices_eq] at hx
  rcases List.mem_append.mp hx with hx | hx
  · obtain ⟨hx, ha, hb⟩ := mem_verticesBut.mp hx
    exact ⟨x, hx, by simp [mergeInto, ha, hb]⟩
  · obtain ⟨ha, -⟩ := hc.before.mem_of_hasEdge hc.edge
    exact ⟨a, ha, by simp [mergeInto, List.mem_singleton.mp hx]⟩

theorem componentCount_eq : h.componentCount = g.componentCount := by
  let become (v : {v // v ∈ g.vertices}) : {x // x ∈ h.vertices} :=
    ⟨mergeInto a b m v, hc.mergeInto_mem v.property⟩
  have hsurjective : Function.Surjective become := by
    rintro ⟨x, hx⟩
    obtain ⟨v, hv, rfl⟩ := hc.exists_mergeInto_eq hx
    exact ⟨⟨v, hv⟩, rfl⟩
  have hjoined : joined g.vertices g.edges = (joined h.vertices h.edges).comap become := by
    refine Setoid.ext fun u v => ?_
    exact (hc.reachable_mergeInto_iff u.property v.property).symm
  rw [componentCount_eq_classCount hc.before, componentCount_eq_classCount hc.after, classCount,
    classCount, hjoined, card_quotient_comap hsurjective]

/-! ## Counting edges -/

theorem vertexCount_eq : h.vertexCount + 1 = g.vertexCount := by
  obtain ⟨ha, hb⟩ := hc.before.mem_of_hasEdge hc.edge
  have hnodup := hc.before.simple.vertices_nodup
  have hba : a ∈ g.vertices.erase b := (List.mem_erase_of_ne hc.ne).mpr ha
  have hbut : verticesBut g.vertices a b = (g.vertices.erase b).erase a := by
    rw [verticesBut, (hnodup.erase b).erase_eq_filter, hnodup.erase_eq_filter]
  have hpos := List.length_pos_of_mem hba
  rw [Graph.vertexCount_eq, Graph.vertexCount_eq, hc.vertices_eq, hbut, List.length_append,
    List.length_singleton, List.length_erase_of_mem hba, List.length_erase_of_mem hb]
  rw [List.length_erase_of_mem hb] at hpos
  omega

/-- A neighbour of both ends stands among the neighbours of each, and once around them. -/
theorem length_around :
    (around g.edges a b).length + (g.commonNeighbors a b).length =
      ((across g.edges a).erase b).length + ((across g.edges b).erase a).length := by
  have hs := hc.before.simple
  have hmem : ∀ {v w c}, w ∈ ((across g.edges v).erase c).toFinset ↔
      g.hasEdge v w = true ∧ w ≠ c := by
    intro v w c
    rw [List.mem_toFinset, (hs.across_nodup v).mem_erase_iff, hc.before.mem_across_iff_hasEdge,
      and_comm]
  have hself : ∀ {v w}, g.hasEdge v w = true → w ≠ v := fun hvw =>
    (hc.before.adj_iff.mpr hvw).ne'
  have hunion : (around g.edges a b).toFinset =
      ((across g.edges a).erase b).toFinset ∪ ((across g.edges b).erase a).toFinset := by
    ext w
    rw [List.mem_toFinset, hc.mem_around_iff, Finset.mem_union, hmem, hmem]
    constructor
    · rintro ⟨haw | hbw, hwa, hwb⟩
      · exact Or.inl ⟨haw, hwb⟩
      · exact Or.inr ⟨hbw, hwa⟩
    · rintro (⟨haw, hwb⟩ | ⟨hbw, hwa⟩)
      · exact ⟨Or.inl haw, hself haw, hwb⟩
      · exact ⟨Or.inr hbw, hwa, hself hbw⟩
  have hinter : (g.commonNeighbors a b).toFinset =
      ((across g.edges a).erase b).toFinset ∩ ((across g.edges b).erase a).toFinset := by
    ext w
    rw [List.mem_toFinset, commonNeighbors, List.mem_filter, Bool.and_eq_true, Finset.mem_inter,
      hmem, hmem]
    constructor
    · rintro ⟨-, haw, hbw⟩
      exact ⟨⟨haw, hself hbw⟩, hbw, hself haw⟩
    · rintro ⟨⟨haw, -⟩, hbw, -⟩
      exact ⟨(hc.before.mem_of_hasEdge haw).2, haw, hbw⟩
  have haround : (around g.edges a b).Nodup := nodup_eraseDups _
  have hcommon : (g.commonNeighbors a b).Nodup := hs.vertices_nodup.filter _
  rw [← List.toFinset_card_of_nodup haround, ← List.toFinset_card_of_nodup hcommon, hunion, hinter,
    Finset.card_union_add_card_inter,
    List.toFinset_card_of_nodup ((hs.across_nodup a).erase b),
    List.toFinset_card_of_nodup ((hs.across_nodup b).erase a)]

/-- One edge is lost, and one more for each common neighbour of its ends. -/
theorem edgeCount_eq : h.edgeCount + 1 + (g.commonNeighbors a b).length = g.edgeCount := by
  have hs := hc.before.simple
  obtain ⟨hm, hedges⟩ := hc.edges_eq
  obtain ⟨ha, hb⟩ := hc.before.mem_of_hasEdge hc.edge
  have hab : b ∈ across g.edges a := hc.before.mem_across_iff_hasEdge.mpr hc.edge
  have hba : a ∈ across g.edges b := mem_across_comm.mp hab
  -- First the edges at `b` are taken out, then those at `a` but the one to `b`.
  have hfirst := length_filter_contains g.edges b
  have hsecond := length_filter_contains (g.edges.filter fun e => !e.contains b) a
  rw [across_filter_contains g.edges hc.ne, ← (hs.across_nodup a).erase_eq_filter] at hsecond
  have harrive := hc.length_around
  have hleave := List.length_erase_of_mem hba
  have hpos := List.length_pos_of_mem hba
  rw [edgeCount, edgeCount, hedges, List.length_append, length_star]
  unfold edgesBut
  omega

/-! ## Forests and trees -/

theorem isAcyclic (hacyclic : g.isAcyclic = true) : h.isAcyclic = true := by
  have hbound := (length_le_and_eq_iff hc.after.simple).1
  have hvertices := hc.vertexCount_eq
  have hedges := hc.edgeCount_eq
  have hcomponents := hc.componentCount_eq
  rw [← Graph.vertexCount_eq, ← componentCount_eq_classCount hc.after, ← edgeCount] at hbound
  rw [Graph.isAcyclic, beq_iff_eq] at hacyclic ⊢
  omega

theorem isTree (htree : g.isTree = true) : h.isTree = true := by
  rw [Graph.isTree, Bool.and_eq_true, Bool.and_eq_true, Bool.not_eq_true'] at htree ⊢
  obtain ⟨⟨-, hconnected⟩, hacyclic⟩ := htree
  refine ⟨⟨(isEmpty_eq_false_iff h).mpr ⟨m, ?_⟩, ?_⟩, hc.isAcyclic hacyclic⟩
  · simp [hc.vertices_eq]
  · rwa [isConnected, hc.componentCount_eq]

end ContractionParts

/-! ## Contraction in place -/

/-- What is left of a graph when the edge between `a` and `b` is contracted into `m`. -/
structure Contracted (g : Graph) (a b m : Vertex) (h : Graph) : Prop where
  /-- The label of `m` is that of `a` followed by that of `b`, and fewer primes behind it would make
  it the label of another vertex. -/
  label_least : ∃ k, m.label = primed (a.label ++ b.label) k ∧
    ∀ j < k, (⟨primed (a.label ++ b.label) j⟩ : Vertex) ∈ verticesBut g.vertices a b
  new : m ∉ verticesBut g.vertices a b
  vertices_eq : h.vertices = verticesBut g.vertices a b ++ [m]
  hasEdge_kept : ∀ u ∈ verticesBut g.vertices a b, ∀ v ∈ verticesBut g.vertices a b,
    h.hasEdge u v = g.hasEdge u v
  hasEdge_merged : ∀ w, h.hasEdge m w = true ↔
    (g.hasEdge a w = true ∨ g.hasEdge b w = true) ∧ w ≠ a ∧ w ≠ b
  edgeCount_eq : h.edgeCount + 1 + (g.commonNeighbors a b).length = g.edgeCount
  componentCount_eq : h.componentCount = g.componentCount
  isAcyclic : g.isAcyclic = true → h.isAcyclic = true
  isTree : g.isTree = true → h.isTree = true

theorem ContractionParts.contracted (hc : g.ContractionParts a b m h) : g.Contracted a b m h where
  label_least := by
    obtain ⟨k, -, hlabel⟩ := hc.exists_label
    exact ⟨k, hlabel⟩
  new := hc.not_mem
  vertices_eq := hc.vertices_eq
  hasEdge_kept _ hu _ hv := hc.hasEdge_kept hu hv
  hasEdge_merged _ := hc.hasEdge_merged
  edgeCount_eq := hc.edgeCount_eq
  componentCount_eq := hc.componentCount_eq
  isAcyclic := hc.isAcyclic
  isTree := hc.isTree

/-- The ends of an edge can be taken out one after the other. -/
theorem exists_removeEnds (hg : g.WellFormed) (hab : g.hasEdge a b = true) :
    ∃ rest, (do Edit.removeVertex b; Edit.removeVertex a).runOn g = (.ok (), rest) ∧
      rest.vertices = verticesBut g.vertices a b := by
  obtain ⟨ha, hb⟩ := hg.mem_of_hasEdge hab
  have hne : a ≠ b := (hg.adj_iff.mpr hab).ne
  obtain ⟨g₁, hok₁⟩ := exists_removeVertex hg hb
  have hvertices := (removeVertex_parts hg hb hok₁).1
  have ha₁ : a ∈ g₁.vertices := by
    rw [hvertices]
    exact List.mem_filter.mpr ⟨ha, bne_iff_ne.mpr hne⟩
  have hg₁ := hg.removeVertex hok₁
  obtain ⟨g₂, hok₂⟩ := exists_removeVertex hg₁ ha₁
  refine ⟨g₂, ?_, ?_⟩
  · simp only [Edit.runOn_bind, Edit.removeVertex_runOn hg, hok₁, Edit.settled, Edit.settle,
      Except.map, Edit.removeVertex_runOn hg₁, hok₂]
  · rw [(removeVertex_parts hg₁ ha₁ hok₂).1, hvertices, verticesBut]

/-- **Contraction of an edge.** In every graph that can be made, the ends of every edge can be
merged. The search for a label, among the vertices that are left when both ends are taken out, ends
after as many rounds as there are of these, and the merged vertex has the label that it ends at. -/
theorem Reachable.contraction (hg : g.Reachable) (hab : g.hasEdge a b = true) :
    ∃ m h, (Edit.contractEdge a b).runOn g = (.ok m, h) ∧ g.contractEdge a b = .ok (m, h) ∧
      g.Contracted a b m h ∧
      ∃ rest, (do Edit.removeVertex b; Edit.removeVertex a).runOn g = (.ok (), rest) ∧
        ∀ n, rest.vertexCount ≤ n → rest.prime^[n] (a.label ++ b.label) = m.label := by
  have hwf := hg.wellFormed
  obtain ⟨m, h, hok, hc⟩ := exists_contractionParts hwf hab
  obtain ⟨rest, hrest, hvertices⟩ := exists_removeEnds hwf hab
  obtain ⟨k, hk, hlabel, hbefore⟩ := hc.exists_label
  refine ⟨m, h, Edit.contractEdge_runOn_ok hwf hok, hok, hc.contracted, rest, hrest, ?_⟩
  intro n hn
  have hnew := hc.not_mem
  rw [← hvertices] at hk hbefore hnew
  rw [vertexCount_eq] at hn
  rw [hlabel]
  refine iterate_prime hbefore ?_ (Nat.le_trans hk hn)
  rwa [← hlabel]

/-- In a triangle beside a vertex that has the first label already, the merged vertex takes a prime,
and the common neighbour keeps one edge of two. -/
theorem Reachable.contraction_triangle :
    let a : Vertex := ⟨"a"⟩
    let b : Vertex := ⟨"b"⟩
    let c : Vertex := ⟨"c"⟩
    let d : Vertex := ⟨"ab"⟩
    let changes : List Change := [.addVertex a, .addVertex b, .addVertex c, .addVertex d,
      .addEdge a b, .addEdge c a, .addEdge b c, .addEdge c d]
    let g := changes.foldl Graph.change {}
    ∃ h, (Edit.contractEdge a b).runOn g = (.ok ⟨"ab'"⟩, h) ∧ h.vertices = [c, d, ⟨"ab'"⟩] ∧
      h.edgeCount = 2 ∧ h.hasEdge ⟨"ab'"⟩ c = true ∧ h.hasEdge ⟨"ab'"⟩ d = false := by
  intro a b c d changes g
  have hg : g.Reachable := Reachable.empty.changes changes
  have hab : g.hasEdge a b = true := by decide
  have hothers : verticesBut g.vertices a b = [c, d] := by decide
  obtain ⟨⟨label⟩, h, hrun, -, hm, -⟩ := Reachable.contraction hg hab
  obtain ⟨k, rfl, hbefore⟩ := hm.label_least
  have hnew := hm.new
  rw [hothers] at hbefore hnew
  obtain rfl : k = 1 := by
    match k with
    | 0 => exact absurd hnew (by decide)
    | 1 => rfl
    | k + 2 => exact absurd (hbefore 1 (by omega)) (by decide)
  have hcount : g.edgeCount = 4 ∧ (g.commonNeighbors a b).length = 1 := by decide
  have hlost := hm.edgeCount_eq
  refine ⟨h, hrun, ?_, by omega, ?_, ?_⟩
  · rw [hm.vertices_eq, hothers]
    rfl
  · exact (hm.hasEdge_merged c).mpr (by decide)
  · rw [Bool.eq_false_iff]
    exact fun hd => absurd ((hm.hasEdge_merged d).mp hd) (by decide)

end GraphLogic.Graph
