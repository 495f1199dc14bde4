import GraphLogic.Proofs.Graph.InPlace
import GraphLogic.Proofs.Graph.Isomorphism
import GraphLogic.Proofs.Graph.SimplePath

/-!
# Elimination does not depend on the order

**Theorem (`Reachable.eliminations`).** Vertices of a graph can be eliminated one after the other in
every order, and what is left is the same graph: the other vertices, two of them adjacent just when
a path leads from one to the other through eliminated vertices only.

What carries this along a sequence of eliminations is a statement on ways whose vertices lie in a
given set (`LeadsWithin`). After an elimination, a way within `S` stands for one before it within
`S` and the eliminated vertex, and the other way round (`Eliminated.leadsWithin_iff`): each new edge
goes around that vertex. So the ways after a whole sequence are the ways before it within `S` and
the eliminated vertices, which has nothing to do with their order.
-/

namespace GraphLogic.Graph

variable {g h k : Graph} {S : Set Vertex} {us ws : List Vertex} {p : List Vertex}
  {a b u v w x y : Vertex}

/-! ## Adjacency after a change -/

/-- An edge that is refused because it is there already changes nothing, and neither does this
statement. -/
theorem hasEdge_orSelf_addEdge (hg : g.WellFormed) (hx : x ∈ g.vertices) (hy : y ∈ g.vertices)
    (hne : x ≠ y) :
    (g.orSelf (g.addEdge x y)).hasEdge a b = true ↔
      g.hasEdge a b = true ∨ a = x ∧ b = y ∨ a = y ∧ b = x := by
  by_cases hxy : ∃ f ∈ g.edges, f.joins x y = true
  · have hrefused : g.addEdge x y = .error (.duplicateEdge ⟨x, y, hne⟩) := by
      rw [addEdge_eq, dif_neg hne, if_neg (not_not_intro hx), if_neg (not_not_intro hy),
        if_pos (contains_edge_iff.mpr hxy)]
    rw [hrefused]
    show g.hasEdge a b = true ↔ _
    have hthere : g.hasEdge x y = true := hg.hasEdge_iff.mpr hxy
    constructor
    · exact Or.inl
    · rintro (hab | ⟨rfl, rfl⟩ | ⟨rfl, rfl⟩)
      · exact hab
      · exact hthere
      · rwa [hg.hasEdge_comm]
  · have hnew : ∀ f ∈ g.edges, f.joins x y = false := by
      intro f hf
      rw [Bool.eq_false_iff]
      exact fun hj => hxy ⟨f, hf, hj⟩
    have hok : g.addEdge x y = .ok (g.link ⟨x, y, hne⟩) :=
      addEdge_eq_ok_iff.mpr ⟨_, rfl, rfl, hx, hy, hnew, rfl⟩
    have hlast : Edge.joins ⟨x, y, hne⟩ a b = true ↔ a = x ∧ b = y ∨ a = y ∧ b = x := by
      rw [Edge.joins_iff]
      constructor <;> rintro (⟨rfl, rfl⟩ | ⟨rfl, rfl⟩) <;> simp
    rw [hok]
    show (g.link ⟨x, y, hne⟩).hasEdge a b = true ↔ _
    rw [(hg.addEdge hok).hasEdge_iff, hg.hasEdge_iff]
    show (∃ f ∈ g.edges ++ [⟨x, y, hne⟩], f.joins a b = true) ↔ _
    simp only [List.mem_append, List.mem_singleton, or_and_right, exists_or, exists_eq_left, hlast]

theorem hasEdge_foldl_addEdge (hg : g.WellFormed) (hv : v ∈ g.vertices)
    (hus : ∀ u ∈ us, u ∈ g.vertices ∧ u ≠ v) :
    (us.foldl (fun h u => h.orSelf (h.addEdge v u)) g).hasEdge a b = true ↔
      g.hasEdge a b = true ∨ a = v ∧ b ∈ us ∨ b = v ∧ a ∈ us := by
  induction us generalizing g with
  | nil => simp
  | cons u us ih =>
    obtain ⟨hu, hne⟩ := hus u List.mem_cons_self
    have hsame := vertices_orSelf_addEdge g v u
    rw [List.foldl_cons, ih (hg.orSelf fun _ => hg.addEdge) (hsame ▸ hv)
      (fun w hw => hsame ▸ hus w (List.mem_cons_of_mem u hw)),
      hasEdge_orSelf_addEdge hg hv hu hne.symm]
    simp only [List.mem_cons]
    tauto

/-- Connecting vertices makes every two of them adjacent. -/
theorem hasEdge_connectAll (hg : g.WellFormed) (hnodup : us.Nodup)
    (hus : ∀ u ∈ us, u ∈ g.vertices) :
    (g.connectAll us).hasEdge a b = true ↔
      g.hasEdge a b = true ∨ a ≠ b ∧ a ∈ us ∧ b ∈ us := by
  induction us generalizing g with
  | nil => simp [connectAll]
  | cons u us ih =>
    obtain ⟨hu, hnodup⟩ := List.nodup_cons.mp hnodup
    have hwf := hg.foldl (f := fun h w => h.orSelf (h.addEdge u w))
      (fun h w hh => hh.orSelf fun _ => hh.addEdge) us
    have hsame := vertices_foldl_addEdge g u us
    have hrest : ∀ w ∈ us, w ∈ g.vertices ∧ w ≠ u := fun w hw =>
      ⟨hus w (List.mem_cons_of_mem u hw), fun heq => hu (heq ▸ hw)⟩
    rw [connectAll, ih hwf hnodup (fun w hw => hsame ▸ (hrest w hw).1),
      hasEdge_foldl_addEdge hg (hus u List.mem_cons_self) hrest]
    simp only [List.mem_cons]
    constructor
    · rintro ((hab | ⟨rfl, hb⟩ | ⟨rfl, ha⟩) | ⟨hne, ha, hb⟩)
      · exact Or.inl hab
      · exact Or.inr ⟨fun heq => hu (heq ▸ hb), Or.inl rfl, Or.inr hb⟩
      · exact Or.inr ⟨fun heq => hu (heq ▸ ha), Or.inr ha, Or.inl rfl⟩
      · exact Or.inr ⟨hne, Or.inr ha, Or.inr hb⟩
    · rintro (hab | ⟨hne, rfl | ha, rfl | hb⟩)
      · exact Or.inl (Or.inl hab)
      · exact absurd rfl hne
      · exact Or.inl (Or.inr (Or.inl ⟨rfl, hb⟩))
      · exact Or.inl (Or.inr (Or.inr ⟨rfl, ha⟩))
      · exact Or.inr ⟨hne, ha, hb⟩

theorem removeVertex_parts (hg : g.WellFormed) (hv : v ∈ g.vertices)
    (hok : g.removeVertex v = .ok h) :
    h.vertices = g.vertices.filter (· != v) ∧ h.edges = g.edges.filter (!·.contains v) := by
  obtain ⟨vs, es, hs, rfl⟩ := hg
  rw [vertices_drawn] at hv
  rw [removeVertex_drawn hs hv] at hok
  cases hok
  rw [vertices_drawn, vertices_drawn]
  exact ⟨rfl, rfl⟩

theorem hasEdge_removeVertex (hg : g.WellFormed) (hv : v ∈ g.vertices)
    (hok : g.removeVertex v = .ok h) :
    h.hasEdge a b = true ↔ g.hasEdge a b = true ∧ a ≠ v ∧ b ≠ v := by
  have hkept : ∀ e : Edge, e.joins a b = true →
      ((!e.contains v) = true ↔ a ≠ v ∧ b ≠ v) := by
    intro e hj
    rw [Bool.not_eq_true', Bool.eq_false_iff, ne_eq, Edge.contains_iff_of_joins hj, not_or]
  rw [(hg.removeVertex hok).hasEdge_iff, hg.hasEdge_iff, (removeVertex_parts hg hv hok).2]
  constructor
  · rintro ⟨e, he, hj⟩
    obtain ⟨he, hv⟩ := List.mem_filter.mp he
    exact ⟨⟨e, he, hj⟩, (hkept e hj).mp hv⟩
  · rintro ⟨⟨e, he, hj⟩, hends⟩
    exact ⟨e, List.mem_filter.mpr ⟨he, (hkept e hj).mpr hends⟩, hj⟩

/-- Vertices other than `v` are adjacent in `h` when they are in `g`, or when both are adjacent to
`v` there. -/
def Bypasses (h g : Graph) (v : Vertex) : Prop :=
  ∀ a b, h.hasEdge a b = true ↔ a ≠ v ∧ b ≠ v ∧
    (g.hasEdge a b = true ∨ a ≠ b ∧ g.hasEdge a v = true ∧ g.hasEdge v b = true)

/-- Eliminating a vertex leaves the others, in their order. -/
theorem exists_eliminateVertex (hg : g.WellFormed) (hv : v ∈ g.vertices) :
    ∃ h, g.eliminateVertex v = .ok h ∧ h.WellFormed ∧ h.vertices = g.vertices.filter (· != v) ∧
      h.Bypasses g v := by
  have haround := hg.neighbors_eq hv
  have hwf := hg.connectAll (across g.edges v)
  have hvertices := vertices_connectAll g (across g.edges v)
  have hv' : v ∈ (g.connectAll (across g.edges v)).vertices := hvertices ▸ hv
  obtain ⟨h, hremove⟩ := exists_removeVertex hwf hv'
  have hus : ∀ u ∈ across g.edges v, u ∈ g.vertices := by
    intro u hu
    exact (hg.mem_of_hasEdge (hg.mem_across_iff_hasEdge.mp hu)).2
  refine ⟨h, ?_, hwf.removeVertex hremove, ?_, fun a b => ?_⟩
  · unfold eliminateVertex
    rw [haround]
    exact hremove
  · rw [(removeVertex_parts hwf hv' hremove).1, hvertices]
  · rw [hasEdge_removeVertex hwf hv' hremove, hasEdge_connectAll hg (hg.simple.across_nodup v) hus,
      hg.mem_across_iff_hasEdge, hg.mem_across_iff_hasEdge, hg.hasEdge_comm v a]
    tauto

/-! ## Ways -/

/-- A way leads from `a` to `b` whose vertices after `a` lie in `S`. -/
def LeadsWithin (g : Graph) (S : Set Vertex) : Vertex → Vertex → Prop :=
  Relation.ReflTransGen fun v w => g.hasEdge v w = true ∧ w ∈ S

theorem not_hasEdge_self (hg : g.WellFormed) (v : Vertex) : ¬ g.hasEdge v v = true :=
  fun h => (hg.adj_iff.mpr h).ne rfl

/-- A simple path is a way, and a way becomes one when what lies between two visits to a vertex is
left out. -/
theorem exists_isPath_within_iff (hg : g.WellFormed) :
    (∃ p, g.IsPath a b p ∧ ∀ v ∈ p, v ≠ a → v ∈ S) ↔ g.LeadsWithin S a b := by
  classical
  have hway : ∀ {a b : Vertex} (w : (net g.edges).Walk a b), (∀ v ∈ w.support.tail, v ∈ S) →
      g.LeadsWithin S a b := by
    intro a b w
    induction w with
    | nil => exact fun _ => .refl
    | @cons a c b hac w ih =>
      intro hS
      have hrest : ∀ v ∈ w.support, v ∈ S := hS
      refine .head ⟨hg.adj_iff.mp hac, hrest c w.start_mem_support⟩ (ih fun v hv => ?_)
      exact hrest v (List.mem_of_mem_tail hv)
  constructor
  · rintro ⟨p, hp, hS⟩
    obtain ⟨w, hw, rfl⟩ := (isPath_iff_exists_walk hg).mp hp
    refine hway w fun v hv => hS v (List.mem_of_mem_tail hv) ?_
    rintro rfl
    have hnodup := hw.support_nodup
    rw [← w.cons_tail_support, List.nodup_cons] at hnodup
    exact hnodup.1 hv
  · intro hab
    have hwalk : ∃ w : (net g.edges).Walk a b, ∀ v ∈ w.support.tail, v ∈ S := by
      induction hab using Relation.ReflTransGen.head_induction_on with
      | refl => exact ⟨.nil, by simp⟩
      | @head a c hac _ ih =>
        obtain ⟨w, hw⟩ := ih
        refine ⟨.cons (hg.adj_iff.mpr hac.1) w, fun v hv => ?_⟩
        rw [SimpleGraph.Walk.support_cons, List.tail_cons, ← w.cons_tail_support] at hv
        rcases List.mem_cons.mp hv with rfl | hv
        · exact hac.2
        · exact hw v hv
    obtain ⟨w, hw⟩ := hwalk
    refine ⟨_, (isPath_iff_exists_walk hg).mpr ⟨w.bypass, w.bypass_isPath, rfl⟩, fun v hv hva => ?_⟩
    have hmem := w.support_bypass_subset_support hv
    rw [← w.cons_tail_support] at hmem
    exact hw v ((List.mem_cons.mp hmem).resolve_left hva)

/-! ## Eliminations -/

/-- What is left of a graph when the vertices of `us` are eliminated. -/
structure Eliminated (g : Graph) (us : List Vertex) (h : Graph) : Prop where
  wellFormed : h.WellFormed
  /-- The others, in their order. -/
  vertices_eq : h.vertices = g.vertices.filter (· ∉ us)
  /-- Ways after the eliminations are ways before that may pass eliminated vertices. -/
  leadsWithin_iff : ∀ S a b, a ∉ us → b ∉ us →
    (h.LeadsWithin S a b ↔ g.LeadsWithin (S ∪ {u | u ∈ us}) a b)

theorem eliminated_nil (hg : g.WellFormed) : g.Eliminated [] g where
  wellFormed := hg
  vertices_eq := by simp
  leadsWithin_iff S a b _ _ := by simp

/-- A step to a neighbour after an elimination is one before, or two by way of the vertex. -/
theorem Bypasses.leadsWithin_of (hedges : h.Bypasses g v) (hab : h.LeadsWithin S a b) :
    g.LeadsWithin (S ∪ {u | u ∈ [v]}) a b := by
  have hv : v ∈ S ∪ {u | u ∈ [v]} := Or.inr (List.mem_singleton_self v)
  induction hab with
  | refl => exact .refl
  | @tail x y _ hxy ih =>
    obtain ⟨hedge, hy⟩ := hxy
    obtain ⟨-, -, hone | ⟨-, hxv, hvy⟩⟩ := (hedges x y).mp hedge
    · exact ih.tail ⟨hone, Or.inl hy⟩
    · exact (ih.tail ⟨hxv, hv⟩).tail ⟨hvy, Or.inl hy⟩

/-- A way before an elimination can leave the vertex out: what it passes just before and after is
adjacent by then, or the same. -/
theorem Bypasses.leadsWithin (hg : g.WellFormed) (hedges : h.Bypasses g v) (ha : a ≠ v)
    (hb : b ≠ v) (hab : g.LeadsWithin (S ∪ {u | u ∈ [v]}) a b) : h.LeadsWithin S a b := by
  -- While the way is at `v`, the new way waits at the vertex `d` before.
  have hway : ∃ d, d ≠ v ∧ h.LeadsWithin S a d ∧ (d = b ∨ b = v ∧ g.hasEdge d v = true) := by
    clear hb
    induction hab with
    | refl => exact ⟨a, ha, .refl, Or.inl rfl⟩
    | @tail x y _ hxy ih =>
      obtain ⟨hedge, hy⟩ := hxy
      obtain ⟨d, hd, had, hdx⟩ := ih
      have hyS : y ≠ v → y ∈ S := fun hyv =>
        hy.resolve_right fun hmem => hyv (List.mem_singleton.mp hmem)
      rcases hdx with rfl | ⟨rfl, hdv⟩
      · by_cases hyv : y = v
        · subst hyv
          exact ⟨d, hd, had, Or.inr ⟨rfl, hedge⟩⟩
        · exact ⟨y, hyv, had.tail ⟨(hedges d y).mpr ⟨hd, hyv, Or.inl hedge⟩, hyS hyv⟩, Or.inl rfl⟩
      · have hyx : y ≠ x := by
          rintro rfl
          exact not_hasEdge_self hg y hedge
        by_cases hdy : d = y
        · exact ⟨d, hd, had, Or.inl hdy⟩
        · have hnew := (hedges d y).mpr ⟨hd, hyx, Or.inr ⟨hdy, hdv, hedge⟩⟩
          exact ⟨y, hyx, had.tail ⟨hnew, hyS hyx⟩, Or.inl rfl⟩
  obtain ⟨d, -, had, rfl | ⟨rfl, -⟩⟩ := hway
  · exact had
  · exact absurd rfl hb

theorem eliminated_singleton (hg : g.WellFormed) (hh : h.WellFormed)
    (hvertices : h.vertices = g.vertices.filter (· != v)) (hedges : h.Bypasses g v) :
    g.Eliminated [v] h where
  wellFormed := hh
  vertices_eq := by
    rw [hvertices]
    refine List.filter_congr fun w _ => ?_
    rw [Bool.eq_iff_iff, bne_iff_ne, decide_eq_true_iff, List.mem_singleton]
  leadsWithin_iff S a b ha hb := by
    rw [List.mem_singleton] at ha hb
    exact ⟨hedges.leadsWithin_of, hedges.leadsWithin hg ha hb⟩

theorem Eliminated.append (hgh : g.Eliminated us h) (hhk : h.Eliminated ws k) :
    g.Eliminated (us ++ ws) k where
  wellFormed := hhk.wellFormed
  vertices_eq := by
    rw [hhk.vertices_eq, hgh.vertices_eq, List.filter_filter]
    refine List.filter_congr fun v _ => ?_
    simp [Bool.and_comm]
  leadsWithin_iff S a b ha hb := by
    rw [List.mem_append, not_or] at ha hb
    have hset : S ∪ {w | w ∈ ws} ∪ {u | u ∈ us} = S ∪ {u | u ∈ us ++ ws} := by
      ext v
      simp only [Set.mem_union, Set.mem_ofPred_eq, List.mem_append]
      tauto
    rw [hhk.leadsWithin_iff S a b ha.2 hb.2, hgh.leadsWithin_iff _ a b ha.1 hb.1, hset]

/-- Distinct vertices can be eliminated one after the other. -/
theorem exists_eliminateVertices (hg : g.WellFormed) (hnodup : us.Nodup)
    (hus : ∀ u ∈ us, u ∈ g.vertices) :
    ∃ h, us.foldlM eliminateVertex g = .ok h ∧ g.Eliminated us h := by
  induction us generalizing g with
  | nil => exact ⟨g, rfl, eliminated_nil hg⟩
  | cons u us ih =>
    obtain ⟨hu, hnodup⟩ := List.nodup_cons.mp hnodup
    obtain ⟨h, hok, hh, hvertices, hedges⟩ := exists_eliminateVertex hg (hus u List.mem_cons_self)
    have hleft : ∀ w ∈ us, w ∈ h.vertices := by
      intro w hw
      rw [hvertices, List.mem_filter, bne_iff_ne]
      exact ⟨hus w (List.mem_cons_of_mem u hw), fun heq => hu (heq ▸ hw)⟩
    obtain ⟨k, hrest, hhk⟩ := ih hh hnodup hleft
    refine ⟨k, ?_, (eliminated_singleton hg hh hvertices hedges).append hhk⟩
    rw [List.foldlM_cons, hok]
    exact hrest

theorem runOn_forM_eliminateVertex (hg : g.WellFormed)
    (hok : us.foldlM Graph.eliminateVertex g = .ok h) :
    (us.forM Edit.eliminateVertex).runOn g = (.ok (), h) :=
  Edit.runOn_forM_of_foldlM (fun _ v hg => Edit.eliminateVertex_runOn hg v)
    (fun _ _ _ hg hok => hg.eliminateVertex hok) hg hok

namespace Eliminated

theorem mem_vertices_iff (hgh : g.Eliminated us h) :
    a ∈ h.vertices ↔ a ∈ g.vertices ∧ a ∉ us := by
  rw [hgh.vertices_eq, List.mem_filter, decide_eq_true_iff]

/-- Two vertices that are left are adjacent when a path leads around through eliminated vertices:
an edge is a way within its far end. -/
theorem hasEdge_iff (hg : g.WellFormed) (hgh : g.Eliminated us h) :
    h.hasEdge a b = true ↔ (a ∉ us ∧ b ∉ us ∧ a ≠ b) ∧
      ∃ p, g.IsPath a b p ∧ ∀ v ∈ p, v ≠ a → v ≠ b → v ∈ us := by
  have hends : h.hasEdge a b = true → a ∉ us ∧ b ∉ us ∧ a ≠ b := by
    intro hone
    obtain ⟨ha, hb⟩ := hgh.wellFormed.mem_of_hasEdge hone
    refine ⟨(hgh.mem_vertices_iff.mp ha).2, (hgh.mem_vertices_iff.mp hb).2, ?_⟩
    rintro rfl
    exact not_hasEdge_self hgh.wellFormed a hone
  rw [← and_iff_right_of_imp hends]
  refine and_congr_right fun ⟨ha, hb, hab⟩ => ?_
  have hedge : h.hasEdge a b = true ↔ h.LeadsWithin {b} a b := by
    constructor
    · exact fun hone => .single ⟨hone, rfl⟩
    · intro hway
      obtain rfl | ⟨c, ⟨hone, rfl⟩, -⟩ := hway.cases_head
      · exact absurd rfl hab
      · exact hone
  rw [hedge, hgh.leadsWithin_iff {b} a b ha hb, ← exists_isPath_within_iff hg]
  refine exists_congr fun p => and_congr_right fun _ => forall₃_congr fun v _ _ => ?_
  exact or_iff_not_imp_left

theorem exists_isPath_iff (hg : g.WellFormed) (hgh : g.Eliminated us h) (ha : a ∉ us)
    (hb : b ∉ us) : (∃ p, h.IsPath a b p) ↔ ∃ p, g.IsPath a b p := by
  have hall : ∀ {k : Graph}, k.WellFormed →
      ((∃ p, k.IsPath a b p) ↔ k.LeadsWithin Set.univ a b) := by
    intro k hk
    rw [← exists_isPath_within_iff hk]
    simp
  rw [hall hgh.wellFormed, hall hg, hgh.leadsWithin_iff _ a b ha hb, Set.univ_union]

theorem vertices_eq_of_perm (hgh : g.Eliminated us h) (hgk : g.Eliminated ws k)
    (hperm : ws.Perm us) : k.vertices = h.vertices := by
  rw [hgh.vertices_eq, hgk.vertices_eq]
  simp only [hperm.mem_iff]

/-- What is left depends on which vertices were eliminated, not on their order. -/
theorem beq_of_perm (hg : g.WellFormed) (hgh : g.Eliminated us h) (hgk : g.Eliminated ws k)
    (hperm : ws.Perm us) : (h == k) = true := by
  rw [beq_iff_same hgh.wellFormed hgk.wellFormed, same_iff hgh.wellFormed hgk.wellFormed]
  refine ⟨fun v => by rw [hgh.vertices_eq_of_perm hgk hperm], fun a b => ?_⟩
  rw [Bool.eq_iff_iff, hgh.hasEdge_iff hg, hgk.hasEdge_iff hg]
  simp only [hperm.mem_iff]

end Eliminated

/-- **Elimination does not depend on the order.** In every graph that can be made, distinct vertices
can be eliminated one after the other. What is left are the others in their order, adjacent when a
path leads around through eliminated vertices, and joined by a path when they were before. Every
other order of elimination leaves the same graph. -/
theorem Reachable.eliminations (hg : g.Reachable) (hnodup : us.Nodup)
    (hus : ∀ u ∈ us, u ∈ g.vertices) :
    ∃ h, (us.forM Edit.eliminateVertex).runOn g = (.ok (), h) ∧
      us.foldlM Graph.eliminateVertex g = .ok h ∧
      h.vertices = g.vertices.filter (· ∉ us) ∧
      (∀ a ∈ h.vertices, ∀ b ∈ h.vertices, a ≠ b → (h.hasEdge a b = true ↔
        ∃ p, g.IsPath a b p ∧ ∀ v ∈ p, v ≠ a → v ≠ b → v ∈ us)) ∧
      (∀ a ∈ h.vertices, ∀ b ∈ h.vertices, (∃ p, h.IsPath a b p) ↔ ∃ p, g.IsPath a b p) ∧
      ∀ ws : List Vertex, ws.Perm us → ∃ k, (ws.forM Edit.eliminateVertex).runOn g = (.ok (), k) ∧
        ws.foldlM Graph.eliminateVertex g = .ok k ∧ k.vertices = h.vertices ∧ (h == k) = true := by
  have hwf := hg.wellFormed
  obtain ⟨h, hok, hgh⟩ := exists_eliminateVertices hwf hnodup hus
  have hleft : ∀ a ∈ h.vertices, a ∉ us := fun a ha => (hgh.mem_vertices_iff.mp ha).2
  refine ⟨h, runOn_forM_eliminateVertex hwf hok, hok, hgh.vertices_eq, ?_, ?_, fun ws hperm => ?_⟩
  · intro a ha b hb hab
    rw [hgh.hasEdge_iff hwf, and_iff_right ⟨hleft a ha, hleft b hb, hab⟩]
  · exact fun a ha b hb => hgh.exists_isPath_iff hwf (hleft a ha) (hleft b hb)
  · obtain ⟨k, hok', hgk⟩ := exists_eliminateVertices hwf (hperm.nodup_iff.mpr hnodup)
      fun u hu => hus u (hperm.mem_iff.mp hu)
    exact ⟨k, runOn_forM_eliminateVertex hwf hok', hok', hgh.vertices_eq_of_perm hgk hperm,
      hgh.beq_of_perm hwf hgk hperm⟩

/-- On the path `a`, `b`, `c`, `d`, eliminating the two inner vertices in either order leaves one
edge, and no other vertex. -/
theorem Reachable.eliminations_inner :
    let a : Vertex := ⟨"a"⟩
    let b : Vertex := ⟨"b"⟩
    let c : Vertex := ⟨"c"⟩
    let d : Vertex := ⟨"d"⟩
    let changes : List Change := [.addVertex a, .addVertex b, .addVertex c, .addVertex d,
      .addEdge a b, .addEdge b c, .addEdge c d]
    let g := changes.foldl Graph.change {}
    ∃ h k, ([b, c].forM Edit.eliminateVertex).runOn g = (.ok (), h) ∧
      ([c, b].forM Edit.eliminateVertex).runOn g = (.ok (), k) ∧ h.vertices = [a, d] ∧
      h.hasEdge a d = true ∧ (h == k) = true := by
  intro a b c d changes g
  have hg : g.Reachable := Reachable.empty.changes changes
  have hnodup : [b, c].Nodup := by decide
  obtain ⟨h, hrun, -, hvertices, hedge, -, horder⟩ :=
    Reachable.eliminations hg hnodup (by decide)
  obtain ⟨k, hrun', -, -, hbeq⟩ := horder [c, b] (List.Perm.swap b c [])
  have hleft : h.vertices = [a, d] := by
    rw [hvertices]
    decide
  have hpath : g.IsPath a d [a, b, c, d] := ⟨rfl, rfl, by decide, by decide⟩
  refine ⟨h, k, hrun, hrun', hleft, ?_, hbeq⟩
  refine (hedge a ?_ d ?_ (by decide)).mpr ⟨[a, b, c, d], hpath, by decide⟩ <;> simp [hleft]

end GraphLogic.Graph
