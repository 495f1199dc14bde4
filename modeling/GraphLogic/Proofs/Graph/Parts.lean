import GraphLogic.Proofs.Graph.Isomorphism
import GraphLogic.Proofs.Graph.Refusal

/-!
# Graphs from lists

**Theorem (`exists_ofParts_iff`).** Lists of vertices and of pairs make a graph just when they are
admissible: no vertex is listed twice, the ends of every pair are two listed vertices, and no two
pairs have the same ends (`Admissible`).

The graph that they make has these vertices and these pairs as its edges, in their order and
direction (`ofParts_eq_ok_iff`). Being admissible is a property of the vertices and of the pairs as
unordered ones, so that order and direction do not matter (`Admissible.of_perm`), and neither do
they for comparisons (`beq_iff`). Where the lists are not admissible, the first entry that does not
fit to those before it is named (`ofParts_eq_error_iff`).

Where they are, it makes no difference whether refusals are reported or ignored
(`Admissible.ofParts_eq`).
-/

namespace GraphLogic.Graph

/-! ## Admissible lists -/

section Lists

variable {α β : Type} {vs vs' : List α} {ps ps' : List (α × α)} {a b : α}

/-- The pairs, without telling their ends apart. -/
def unordered (ps : List (α × α)) : List (Sym2 α) := ps.map fun p => s(p.1, p.2)

/-- The lists describe a simple graph. -/
structure Admissible (vs : List α) (ps : List (α × α)) : Prop where
  vertices_nodup : vs.Nodup
  ends_ne : ∀ p ∈ ps, p.1 ≠ p.2
  ends_mem : ∀ p ∈ ps, p.1 ∈ vs ∧ p.2 ∈ vs
  /-- No two pairs have the same ends. -/
  unordered_nodup : (unordered ps).Nodup

theorem mem_unordered_iff : s(a, b) ∈ unordered ps ↔ (a, b) ∈ ps ∨ (b, a) ∈ ps := by
  unfold unordered
  rw [List.mem_map]
  constructor
  · rintro ⟨⟨x, y⟩, hp, heq⟩
    rcases Sym2.eq_iff.mp heq with ⟨rfl, rfl⟩ | ⟨rfl, rfl⟩
    · exact Or.inl hp
    · exact Or.inr hp
  · rintro (hp | hp)
    · exact ⟨_, hp, rfl⟩
    · exact ⟨_, hp, Sym2.eq_swap⟩

theorem unordered_append (ps qs : List (α × α)) :
    unordered (ps ++ qs) = unordered ps ++ unordered qs :=
  List.map_append

theorem unordered_map (f : α → β) (ps : List (α × α)) :
    unordered (ps.map (Prod.map f f)) = (unordered ps).map (Sym2.map f) := by
  unfold unordered
  rw [List.map_map, List.map_map]
  rfl

namespace Admissible

/-- Neither the order of the lists nor the direction of the pairs matters. -/
theorem of_perm (h : Admissible vs ps) (hvs : vs'.Perm vs)
    (hps : (unordered ps').Perm (unordered ps)) : Admissible vs' ps' := by
  have hmem : ∀ p ∈ ps', p ∈ ps ∨ p.swap ∈ ps := fun p hp =>
    mem_unordered_iff.mp (hps.mem_iff.mp (mem_unordered_iff.mpr (Or.inl hp)))
  refine ⟨hvs.nodup_iff.mpr h.vertices_nodup, fun p hp => ?_, fun p hp => ?_,
    hps.nodup_iff.mpr h.unordered_nodup⟩
  · rcases hmem p hp with hp | hp
    · exact h.ends_ne p hp
    · exact (h.ends_ne _ hp).symm
  · rw [hvs.mem_iff, hvs.mem_iff]
    rcases hmem p hp with hp | hp
    · exact h.ends_mem p hp
    · exact (h.ends_mem _ hp).symm

theorem perm_iff (hvs : vs'.Perm vs) (hps : (unordered ps').Perm (unordered ps)) :
    Admissible vs' ps' ↔ Admissible vs ps :=
  ⟨fun h => h.of_perm hvs.symm hps.symm, fun h => h.of_perm hvs hps⟩

/-- Fewer pairs. -/
theorem sublist (h : Admissible vs ps) (hps : ps'.Sublist ps) : Admissible vs ps' where
  vertices_nodup := h.vertices_nodup
  ends_ne p hp := h.ends_ne p (hps.subset hp)
  ends_mem p hp := h.ends_mem p (hps.subset hp)
  unordered_nodup := h.unordered_nodup.sublist (hps.map _)

/-- One more pair. -/
theorem concat (h : Admissible vs ps) (ha : a ∈ vs) (hb : b ∈ vs) (hab : a ≠ b)
    (hnew : s(a, b) ∉ unordered ps) : Admissible vs (ps ++ [(a, b)]) where
  vertices_nodup := h.vertices_nodup
  ends_ne := by
    rw [List.forall_mem_append, List.forall_mem_singleton]
    exact ⟨h.ends_ne, hab⟩
  ends_mem := by
    rw [List.forall_mem_append, List.forall_mem_singleton]
    exact ⟨h.ends_mem, ha, hb⟩
  unordered_nodup := by
    rw [unordered_append]
    exact List.concat_eq_append ▸ h.unordered_nodup.concat hnew

/-- Other names for the vertices, as long as they tell them apart. -/
theorem map (h : Admissible vs ps) {f : α → β} (hf : f.Injective) :
    Admissible (vs.map f) (ps.map (Prod.map f f)) where
  vertices_nodup := h.vertices_nodup.map hf
  ends_ne := List.forall_mem_map.mpr fun p hp => hf.ne (h.ends_ne p hp)
  ends_mem := List.forall_mem_map.mpr fun p hp =>
    ⟨List.mem_map_of_mem (h.ends_mem p hp).1, List.mem_map_of_mem (h.ends_mem p hp).2⟩
  unordered_nodup := by
    rw [unordered_map]
    exact h.unordered_nodup.map (Sym2.map.injective hf)

end Admissible

end Lists

/-! ## Lists of edges -/

variable {vs vs' : List Vertex} {ps ps' : List (Vertex × Vertex)} {es : List Edge} {g h : Graph}
  {a b v : Vertex} {e : GraphError}

theorem pairsOf_eq (g : Graph) : g.pairsOf = unordered (g.edges.map Edge.ends) := by
  unfold pairsOf unordered
  rw [List.map_map]
  rfl

theorem Simple.admissible (hs : Simple vs es) : Admissible vs (es.map Edge.ends) where
  vertices_nodup := hs.vertices_nodup
  ends_ne := List.forall_mem_map.mpr fun e _ => e.distinct
  ends_mem := List.forall_mem_map.mpr fun e he => hs.ends_mem e he
  unordered_nodup := by
    have hnodup := hs.wellFormed.pairsOf_nodup
    rwa [pairsOf_eq, edges_drawn] at hnodup

theorem exists_edges (h : ∀ p ∈ ps, p.1 ≠ p.2) : ∃ es : List Edge, es.map Edge.ends = ps := by
  refine ⟨ps.attach.map fun p => ⟨p.1.1, p.1.2, h p.1 p.2⟩, ?_⟩
  rw [List.map_map]
  show ps.attach.map (fun p => p.1) = ps
  exact List.attach_map_subtype_val ps

theorem Admissible.exists_simple (h : Admissible vs ps) :
    ∃ es, es.map Edge.ends = ps ∧ Simple vs es := by
  obtain ⟨es, rfl⟩ := exists_edges h.ends_ne
  refine ⟨es, rfl, h.vertices_nodup, ?_, fun e he => ?_⟩
  · have hnodup := h.unordered_nodup
    unfold unordered at hnodup
    rw [List.map_map] at hnodup
    refine (List.pairwise_map.mp hnodup).imp fun {e f} hef => ?_
    rw [Bool.eq_false_iff]
    exact fun hj => hef (joins_iff_pair.mp hj)
  · exact h.ends_mem e.ends (List.mem_map_of_mem he)

/-! ## What lists make -/

theorem addVertex_parts (hok : g.addVertex v = .ok h) :
    h.vertices = g.vertices ++ [v] ∧ h.edges = g.edges := by
  unfold addVertex at hok
  split at hok
  · cases hok
  · cases hok
    exact ⟨List.map_append, rfl⟩

theorem addEdge_parts (hok : g.addEdge a b = .ok h) :
    h.vertices = g.vertices ∧ h.edges.map Edge.ends = g.edges.map Edge.ends ++ [(a, b)] := by
  obtain ⟨e, rfl, rfl, -, -, -, rfl⟩ := addEdge_eq_ok_iff.mp hok
  exact ⟨vertices_link g e, List.map_append⟩

/-- **What lists make.** The graph with these vertices and edges, in their order. -/
theorem ofParts_eq_ok_iff :
    ofParts vs ps = .ok g ↔ g.WellFormed ∧ g.vertices = vs ∧ g.edges.map Edge.ends = ps := by
  constructor
  · intro hok
    obtain ⟨g₁, hvs, hps⟩ := exists_of_bind_eq_ok hok
    have hvertices : g₁.vertices = [] ++ vs.map id :=
      foldlM_concat (m := vertices) (k := id) (fun _ _ _ hok => (addVertex_parts hok).1) hvs
    have hedges : g₁.edges = [] :=
      foldlM_invariant (P := fun g => g.edges = [])
        (fun _ _ _ hs hok => (addVertex_parts hok).2.trans hs) rfl hvs
    have hvertices' : g.vertices = g₁.vertices :=
      foldlM_invariant (P := fun g => g.vertices = g₁.vertices)
        (fun _ _ _ hs hok => (addEdge_parts hok).1.trans hs) rfl hps
    have hedges' : g.edges.map Edge.ends = g₁.edges.map Edge.ends ++ ps.map id :=
      foldlM_concat (m := fun g => g.edges.map Edge.ends) (k := id)
        (fun _ _ _ hok => (addEdge_parts hok).2) hps
    rw [hedges] at hedges'
    simp only [List.map_id, List.nil_append, List.map_nil] at hvertices hedges'
    exact ⟨wellFormed_ofParts hok, hvertices'.trans hvertices, hedges'⟩
  · rintro ⟨hg, rfl, rfl⟩
    exact hg.ofParts_eq

theorem Simple.ofParts_eq (hs : Simple vs es) :
    ofParts vs (es.map Edge.ends) = .ok (drawn vs es) := by
  have heq := hs.wellFormed.ofParts_eq
  rwa [vertices_drawn] at heq

/-- **Which lists make a graph.** -/
theorem exists_ofParts_iff : (∃ g, ofParts vs ps = .ok g) ↔ Admissible vs ps := by
  constructor
  · rintro ⟨g, hok⟩
    obtain ⟨hg, rfl, rfl⟩ := ofParts_eq_ok_iff.mp hok
    exact hg.simple.admissible
  · intro h
    obtain ⟨es, rfl, hs⟩ := h.exists_simple
    exact ⟨_, hs.ofParts_eq⟩

theorem hasEdge_iff_of_ofParts (hok : ofParts vs ps = .ok g) :
    g.hasEdge a b = true ↔ (a, b) ∈ ps ∨ (b, a) ∈ ps := by
  obtain ⟨hg, -, rfl⟩ := ofParts_eq_ok_iff.mp hok
  rw [hg.hasEdge_iff_pair, pairsOf_eq, mem_unordered_iff]

theorem vertices_of_ofParts (hok : ofParts vs ps = .ok g) : g.vertices = vs :=
  (ofParts_eq_ok_iff.mp hok).2.1

theorem vertexCount_of_ofParts (hok : ofParts vs ps = .ok g) : g.vertexCount = vs.length := by
  rw [vertexCount_eq, vertices_of_ofParts hok]

theorem edgeCount_of_ofParts (hok : ofParts vs ps = .ok g) : g.edgeCount = ps.length := by
  obtain ⟨-, -, rfl⟩ := ofParts_eq_ok_iff.mp hok
  exact (List.length_map _).symm

theorem ofParts_concat (vs : List Vertex) (ps : List (Vertex × Vertex)) (a b : Vertex) :
    ofParts vs (ps ++ [(a, b)]) = ofParts vs ps >>= fun g => g.addEdge a b := by
  unfold ofParts
  simp only [List.foldlM_append, List.foldlM_cons, List.foldlM_nil, bind_pure, bind_assoc]

theorem addVertex_eq_error_iff :
    g.addVertex v = .error e ↔ v ∈ g.vertices ∧ e = .duplicateVertex v := by
  unfold addVertex
  simp only [hasVertex_iff]
  split
  · rename_i hv
    rw [Except.error.injEq, and_iff_right hv]
    exact eq_comm
  · rename_i hv
    simp [hv]

theorem addEdge_eq_error_iff : g.addEdge a b = .error e ↔ g.unlinkable? a b = some e := by
  rw [← errorOf?_addEdge]
  cases g.addEdge a b <;> simp [errorOf?]

theorem foldlM_addVertex_eq_ok_iff :
    vs.foldlM addVertex {} = .ok g ↔ vs.Nodup ∧ g = drawn vs [] := by
  have hparts : ofParts vs [] = vs.foldlM addVertex {} := by
    unfold ofParts
    cases vs.foldlM addVertex {} <;> rfl
  rw [← hparts]
  constructor
  · intro hok
    obtain ⟨⟨us, es, hs, rfl⟩, hvertices, hedges⟩ := ofParts_eq_ok_iff.mp hok
    rw [vertices_drawn] at hvertices
    subst hvertices
    rw [edges_drawn, List.map_eq_nil_iff] at hedges
    exact ⟨hs.vertices_nodup, hedges ▸ rfl⟩
  · rintro ⟨hvs, rfl⟩
    have hs : Simple vs [] := ⟨hvs, .nil, by simp⟩
    exact hs.ofParts_eq

/-- **Why lists make no graph.** The first vertex that is there already is named; if there is none,
the first pair that cannot be linked, with the reason. -/
theorem ofParts_eq_error_iff :
    ofParts vs ps = .error e ↔
      (∃ us v ws, vs = us ++ v :: ws ∧ us.Nodup ∧ v ∈ us ∧ e = .duplicateVertex v) ∨
        ∃ qs p rs g, ps = qs ++ p :: rs ∧ ofParts vs qs = .ok g ∧
          g.unlinkable? p.1 p.2 = some e := by
  constructor
  · intro hfail
    rcases error_of_bind hfail with hfail | ⟨g₁, hvs, hfail⟩
    · obtain ⟨us, v, ws, g, rfl, hus, hv⟩ := foldlM_eq_error_iff.mp hfail
      obtain ⟨hnodup, rfl⟩ := foldlM_addVertex_eq_ok_iff.mp hus
      obtain ⟨hmem, rfl⟩ := addVertex_eq_error_iff.mp hv
      rw [vertices_drawn] at hmem
      exact Or.inl ⟨us, v, ws, rfl, hnodup, hmem, rfl⟩
    · obtain ⟨qs, p, rs, g, rfl, hqs, hp⟩ := foldlM_eq_error_iff.mp hfail
      refine Or.inr ⟨qs, p, rs, g, rfl, ?_, addEdge_eq_error_iff.mp hp⟩
      unfold ofParts
      rw [hvs]
      exact hqs
  · rintro (⟨us, v, ws, rfl, hnodup, hv, rfl⟩ | ⟨qs, p, rs, g, rfl, hok, hp⟩)
    · have hus := foldlM_addVertex_eq_ok_iff.mpr ⟨hnodup, rfl⟩
      have hrefused : (drawn us []).addVertex v = .error (.duplicateVertex v) :=
        addVertex_eq_error_iff.mpr ⟨by rwa [vertices_drawn], rfl⟩
      unfold ofParts
      rw [foldlM_eq_error_iff.mpr ⟨us, v, ws, _, rfl, hus, hrefused⟩]
      rfl
    · obtain ⟨g₁, hvs, hqs⟩ := exists_of_bind_eq_ok hok
      unfold ofParts
      rw [hvs]
      exact foldlM_eq_error_iff.mpr ⟨qs, p, rs, g, rfl, hqs, addEdge_eq_error_iff.mpr hp⟩

/-! ## Order -/

/-- **Comparison.** Graphs are equal when they have the same vertices and the same unordered
edges. -/
theorem beq_iff (hg : g.WellFormed) (hh : h.WellFormed) :
    (g == h) = true ↔
      (∀ v, v ∈ g.vertices ↔ v ∈ h.vertices) ∧ ∀ q, q ∈ g.pairsOf ↔ q ∈ h.pairsOf := by
  rw [beq_iff_same hg hh, same_iff hg hh, Sym2.forall]
  refine and_congr_right fun _ => forall₂_congr fun a b => ?_
  rw [← hg.hasEdge_iff_pair, ← hh.hasEdge_iff_pair]
  exact Bool.eq_iff_iff

theorem beq_of_ofParts (hok : ofParts vs ps = .ok g) (hok' : ofParts vs' ps' = .ok h)
    (hvs : vs'.Perm vs) (hps : (unordered ps').Perm (unordered ps)) : (g == h) = true := by
  obtain ⟨hg, rfl, rfl⟩ := ofParts_eq_ok_iff.mp hok
  obtain ⟨hh, rfl, rfl⟩ := ofParts_eq_ok_iff.mp hok'
  rw [beq_iff hg hh, pairsOf_eq, pairsOf_eq]
  exact ⟨fun _ => hvs.mem_iff.symm, fun _ => hps.mem_iff.symm⟩

/-! ## Ignoring refusals -/

/-- Where nothing is refused, there is no refusal to ignore. -/
theorem foldl_orSelf_of_foldlM {α : Type} {f : Graph → α → Except GraphError Graph} {xs : List α}
    (hok : xs.foldlM f g = .ok h) : xs.foldl (fun g x => g.orSelf (f g x)) g = h := by
  induction xs generalizing g with
  | nil =>
    cases hok
    rfl
  | cons x xs ih =>
    rw [List.foldlM_cons] at hok
    obtain ⟨g₁, hx, hok⟩ := exists_of_bind_eq_ok hok
    rw [List.foldl_cons, hx]
    exact ih hok

theorem Admissible.ofParts_eq (h : Admissible vs ps) :
    ofParts vs ps = .ok ((withVertices {} vs).withEdges ps) := by
  obtain ⟨g, hok⟩ := exists_ofParts_iff.mpr h
  obtain ⟨g₁, hvs, hps⟩ := exists_of_bind_eq_ok hok
  unfold withEdges withVertices
  rw [hok, foldl_orSelf_of_foldlM hvs, foldl_orSelf_of_foldlM hps]

end GraphLogic.Graph
