import GraphLogic.Proofs.Graph.Component
import GraphLogic.Proofs.Graph.Reachable
import GraphLogic.Proofs.Graph.SimplePath
import Mathlib.SetTheory.Cardinal.Finite

/-!
# Forests and trees

**Theorem (`Reachable.acyclic_tree`).** A graph that can be made counts as acyclic exactly when it
has no cycle, and as a tree exactly when it has a vertex and one simple path between every two.

What the tests compare are numbers: of edges, of components and of vertices. As the edges are put in
one by one, each either joins two components, which then are one, or closes a cycle
(`length_le_and_eq_iff`). So there are never fewer edges and components than vertices, and as many
just as long as there is no cycle. This holds because no edge is listed twice, none is a loop, and
the rows that the search walks through follow from the list.
-/

namespace GraphLogic.Graph

/-! ## Merging two classes -/

section Merging

variable {α : Type} {r r' : Setoid α} {s t : α}

/-- What is related when `s` and `t` are related, too. -/
def Merges (r r' : Setoid α) (s t : α) : Prop :=
  ∀ a b, r' a b ↔ r a b ∨ (r a s ∧ r t b) ∨ (r a t ∧ r s b)

/-- The classes but that of `t` are the classes after merging. -/
theorem Merges.card_quotient [Finite α] (h : Merges r r' s t) (hst : ¬ r s t) :
    Nat.card (Quotient r) = Nat.card (Quotient r') + 1 := by
  classical
  let widen : Quotient r → Quotient r' := Quotient.map id fun a b hab => (h a b).mpr (Or.inl hab)
  have hbijective : Function.Bijective
      fun q : {q : Quotient r // q ≠ Quotient.mk r t} => widen q.val := by
    constructor
    · rintro ⟨p, hp⟩ ⟨q, hq⟩ hpq
      induction p using Quotient.inductionOn with | _ a
      induction q using Quotient.inductionOn with | _ b
      have hab : r' a b := Quotient.exact hpq
      rcases (h a b).mp hab with hab | ⟨-, htb⟩ | ⟨hat, -⟩
      · exact Subtype.ext (Quotient.sound hab)
      · exact absurd (Quotient.sound (r.symm htb)) hq
      · exact absurd (Quotient.sound hat) hp
    · intro q
      induction q using Quotient.inductionOn with | _ a
      by_cases hat : r a t
      · refine ⟨⟨Quotient.mk r s, fun heq => hst (Quotient.exact heq)⟩, Quotient.sound ?_⟩
        exact (h s a).mpr (Or.inr (Or.inl ⟨r.refl s, r.symm hat⟩))
      · exact ⟨⟨Quotient.mk r a, fun heq => hat (Quotient.exact heq)⟩, rfl⟩
  rw [← Nat.card_eq_of_bijective _ hbijective, ← Finite.card_option]
  exact (Nat.card_congr (Equiv.optionSubtypeNe (Quotient.mk r t))).symm

end Merging

/-! ## Putting in an edge -/

section Edges

variable {vs : List Vertex} {es : List Edge} {e : Edge} {a b s t : Vertex}

/-- A new edge between `s` and `t` makes paths from what is joined with one to what is joined with
the other. -/
theorem reachable_sup_edge_iff {G : SimpleGraph Vertex} (hst : s ≠ t) :
    (G ⊔ SimpleGraph.edge s t).Reachable a b ↔
      G.Reachable a b ∨ (G.Reachable a s ∧ G.Reachable t b) ∨
        (G.Reachable a t ∧ G.Reachable s b) := by
  constructor
  · intro hab
    rw [SimpleGraph.reachable_iff_reflTransGen] at hab
    induction hab with
    | refl => exact Or.inl (.refl a)
    | @tail c b _ hcb ih =>
      rw [SimpleGraph.sup_adj, SimpleGraph.edge_adj] at hcb
      rcases hcb with hcb | ⟨⟨rfl, rfl⟩ | ⟨rfl, rfl⟩, -⟩
      · have hcb := hcb.reachable
        exact ih.imp (·.trans hcb) (Or.imp (.imp_right (·.trans hcb)) (.imp_right (·.trans hcb)))
      · rcases ih with hac | ⟨hac, -⟩ | ⟨hab, -⟩
        · exact Or.inr (Or.inl ⟨hac, .refl b⟩)
        · exact Or.inr (Or.inl ⟨hac, .refl b⟩)
        · exact Or.inl hab
      · rcases ih with hac | ⟨hab, -⟩ | ⟨hac, -⟩
        · exact Or.inr (Or.inr ⟨hac, .refl b⟩)
        · exact Or.inl hab
        · exact Or.inr (Or.inr ⟨hac, .refl b⟩)
  · have hle : G ≤ G ⊔ SimpleGraph.edge s t := le_sup_left
    have hnew : (G ⊔ SimpleGraph.edge s t).Reachable s t :=
      SimpleGraph.Adj.reachable (Or.inr ((SimpleGraph.edge_adj ..).mpr ⟨Or.inl ⟨rfl, rfl⟩, hst⟩))
    rintro (hab | ⟨has, htb⟩ | ⟨hat, hsb⟩)
    · exact hab.mono hle
    · exact (has.mono hle).trans (hnew.trans (htb.mono hle))
    · exact (hat.mono hle).trans (hnew.symm.trans (hsb.mono hle))

theorem net_nil : net [] = ⊥ := by
  ext a b
  simp [net]

theorem net_concat (es : List Edge) (e : Edge) :
    net (es ++ [e]) = net es ⊔ SimpleGraph.edge e.source e.target := by
  ext a b
  have hab : e.joins a b = true ↔ (SimpleGraph.edge e.source e.target).Adj a b := by
    have hd := e.distinct
    rw [SimpleGraph.edge_adj, Edge.joins_iff]
    constructor
    · rintro (⟨rfl, rfl⟩ | ⟨rfl, rfl⟩)
      · exact ⟨Or.inl ⟨rfl, rfl⟩, hd⟩
      · exact ⟨Or.inr ⟨rfl, rfl⟩, hd.symm⟩
    · rintro ⟨⟨rfl, rfl⟩ | ⟨rfl, rfl⟩, -⟩
      · exact Or.inl ⟨rfl, rfl⟩
      · exact Or.inr ⟨rfl, rfl⟩
  rw [SimpleGraph.sup_adj, ← hab]
  show (∃ f ∈ es ++ [e], f.joins a b = true) ↔ (∃ f ∈ es, f.joins a b = true) ∨ _
  simp [or_and_right, exists_or]

/-- Vertices are related when edges lead from one to the other. -/
def joined (vs : List Vertex) (es : List Edge) : Setoid {v // v ∈ vs} :=
  (net es).reachableSetoid.comap Subtype.val

/-- The number of classes of vertices that the edges join. -/
noncomputable def classCount (vs : List Vertex) (es : List Edge) : Nat :=
  Nat.card (Quotient (joined vs es))

theorem classCount_nil (hvs : vs.Nodup) : classCount vs [] = vs.length := by
  have hbot : joined vs [] = ⊥ := by
    refine Setoid.ext fun v w => ?_
    show (net []).Reachable v.val w.val ↔ v = w
    rw [net_nil, SimpleGraph.reachable_bot]
    exact Subtype.ext_iff.symm
  rw [classCount, hbot, Nat.card_congr Setoid.quotientBotEquiv]
  exact (Nat.card_congr hvs.getEquiv.symm).trans (Nat.card_fin _)

/-- An edge between vertices that are joined already changes no class. -/
theorem classCount_concat_of_reachable (h : (net es).Reachable e.source e.target) :
    classCount vs (es ++ [e]) = classCount vs es := by
  have heq : joined vs (es ++ [e]) = joined vs es := by
    refine Setoid.ext fun v w => ?_
    show (net (es ++ [e])).Reachable v.val w.val ↔ (net es).Reachable v.val w.val
    rw [net_concat, reachable_sup_edge_iff e.distinct]
    constructor
    · rintro (hvw | ⟨hv, hw⟩ | ⟨hv, hw⟩)
      · exact hvw
      · exact hv.trans (h.trans hw)
      · exact hv.trans (h.symm.trans hw)
    · exact Or.inl
  rw [classCount, heq, classCount]

/-- An edge between vertices that were not joined makes one class of two. -/
theorem classCount_concat (hsource : e.source ∈ vs) (htarget : e.target ∈ vs)
    (h : ¬ (net es).Reachable e.source e.target) :
    classCount vs es = classCount vs (es ++ [e]) + 1 := by
  have hmerges : Merges (joined vs es) (joined vs (es ++ [e])) ⟨e.source, hsource⟩
      ⟨e.target, htarget⟩ := by
    intro v w
    show (net (es ++ [e])).Reachable v.val w.val ↔ _
    rw [net_concat, reachable_sup_edge_iff e.distinct]
    rfl
  have : Finite {v // v ∈ vs} := List.finite_toSet vs
  exact hmerges.card_quotient h

/-- **Edges and components.** There are at least as many edges and components as vertices, and as
many just when there is no cycle. -/
theorem length_le_and_eq_iff (hs : Simple vs es) :
    vs.length ≤ es.length + classCount vs es ∧
      (es.length + classCount vs es = vs.length ↔ (net es).IsAcyclic) := by
  induction es using List.reverseRecOn with
  | nil =>
    rw [classCount_nil hs.vertices_nodup, net_nil, List.length_nil, Nat.zero_add]
    exact ⟨Nat.le_refl _, iff_of_true rfl SimpleGraph.isAcyclic_bot⟩
  | append_singleton es e ih =>
    obtain ⟨hsource, htarget⟩ := hs.ends_mem e (List.mem_append_right _ (List.mem_singleton_self e))
    have hsub : es.Sublist (es ++ [e]) := List.sublist_append_left ..
    have hnew : ¬ (net es).Adj e.source e.target := by
      rintro ⟨f, hf, hj⟩
      have hapart := (List.pairwise_append.mp hs.edges_apart).2.2 f hf e (List.mem_singleton_self e)
      rw [hapart] at hj
      cases hj
    obtain ⟨hle, hiff⟩ := ih <|
      hs.sublist (List.Sublist.refl _) hsub fun f hf => hs.ends_mem f (hsub.subset hf)
    rw [List.length_append, List.length_singleton, net_concat,
      SimpleGraph.isAcyclic_sup_fromEdgeSet_iff, ← hiff]
    by_cases hreach : (net es).Reachable e.source e.target
    · rw [classCount_concat_of_reachable hreach]
      refine ⟨by omega, iff_of_false (by omega) ?_⟩
      rintro ⟨-, himp⟩
      rcases himp hreach with heq | hadj
      · exact e.distinct heq
      · exact hnew hadj
    · have hcount := classCount_concat hsource htarget hreach
      refine ⟨by omega, ?_⟩
      rw [and_iff_left (fun h => absurd h hreach)]
      omega

end Edges

/-! ## Graphs -/

variable {g : Graph} {a b : Vertex}

theorem componentCount_eq_classCount (hg : g.WellFormed) :
    g.componentCount = classCount g.vertices g.edges := by
  let byId : Fin g.vertexCount ≃ {v // v ∈ g.vertices} :=
    (finCongr (vertexCount_eq g)).trans hg.simple.vertices_nodup.getEquiv
  have hid : ∀ i, g.vertex? i.val = some (byId i).val := by
    intro i
    rw [vertex?_eq]
    exact List.getElem?_eq_getElem _
  rw [componentCount_eq_card hg, classCount]
  refine Nat.card_congr (Quotient.congr byId fun i j => ?_)
  exact linked_iff_reachable hg (hid i) (hid j)

theorem isAcyclic_iff (hg : g.WellFormed) : g.isAcyclic = true ↔ (net g.edges).IsAcyclic := by
  rw [isAcyclic, beq_iff_eq, componentCount_eq_classCount hg, vertexCount_eq, edgeCount]
  exact (length_le_and_eq_iff hg.simple).2

theorem isConnected_iff_reachable (hg : g.WellFormed) :
    g.isConnected = true ↔
      ∀ a ∈ g.vertices, ∀ b ∈ g.vertices, (net g.edges).Reachable a b := by
  rw [isConnected_iff hg]
  constructor
  · intro h a ha b hb
    obtain ⟨i, hi⟩ := exists_vertexId?_iff.mpr ha
    obtain ⟨j, hj⟩ := exists_vertexId?_iff.mpr hb
    rw [hg.vertexId?_eq_some_iff] at hi hj
    exact (linked_iff_reachable hg hi hj).mp <|
      h i (lt_vertexCount_iff.mpr ⟨a, hi⟩) j (lt_vertexCount_iff.mpr ⟨b, hj⟩)
  · intro h i hi j hj
    obtain ⟨a, ha⟩ := lt_vertexCount_iff.mp hi
    obtain ⟨b, hb⟩ := lt_vertexCount_iff.mp hj
    rw [linked_iff_reachable hg ha hb]
    rw [vertex?_eq] at ha hb
    exact h a (List.mem_of_getElem? ha) b (List.mem_of_getElem? hb)

theorem isEmpty_eq_false_iff (g : Graph) : g.isEmpty = false ↔ ∃ v, v ∈ g.vertices := by
  rw [isEmpty, List.isEmpty_eq_false_iff, ← List.length_pos_iff, ← vertexCount, vertexCount_eq,
    List.length_pos_iff_exists_mem]

theorem isTree_iff (hg : g.WellFormed) :
    g.isTree = true ↔ (∃ v, v ∈ g.vertices) ∧
      ∀ a ∈ g.vertices, ∀ b ∈ g.vertices, ∃! p, g.IsPath a b p := by
  rw [isTree, Bool.and_eq_true, Bool.and_eq_true, Bool.not_eq_true', isEmpty_eq_false_iff,
    isConnected_iff_reachable hg, isAcyclic_iff hg, and_assoc]
  refine and_congr_right fun _ => ?_
  constructor
  · rintro ⟨hconnected, hacyclic⟩ a ha b hb
    obtain ⟨p, hp⟩ := (exists_isPath_iff hg).mpr (hconnected a ha b hb)
    exact ⟨p, hp, fun q hq => isPath_unique hg hacyclic hq hp⟩
  · intro h
    refine ⟨fun a ha b hb => (exists_isPath_iff hg).mp (h a ha b hb).exists, ?_⟩
    refine (isAcyclic_iff_no_cycle hg).mpr (no_cycle_of_unique hg fun a b p q hab hp hq => ?_)
    obtain ⟨ha, hb⟩ := hg.mem_of_hasEdge hab
    exact (h a ha b hb).unique hp hq

/-- **Forests and trees.** In every graph that can be made, the numbers of edges, components and
vertices tell whether there is a cycle, and with that whether the graph is a tree. -/
theorem Reachable.acyclic_tree (hg : g.Reachable) :
    (g.isAcyclic = true ↔ ∀ p, ¬ g.IsCycle p) ∧
    (g.isTree = true ↔ (∃ v, v ∈ g.vertices) ∧
      ∀ a ∈ g.vertices, ∀ b ∈ g.vertices, ∃! p, g.IsPath a b p) := by
  have hwf := hg.wellFormed
  exact ⟨(isAcyclic_iff hwf).trans (isAcyclic_iff_no_cycle hwf), isTree_iff hwf⟩

/-- A star with three rays is a tree, and with an edge between two of its rays it has a cycle. -/
theorem Reachable.acyclic_tree_star :
    let o : Vertex := ⟨"o"⟩
    let a : Vertex := ⟨"a"⟩
    let b : Vertex := ⟨"b"⟩
    let c : Vertex := ⟨"c"⟩
    let changes : List Change := [.addVertex o, .addVertex a, .addVertex b, .addVertex c,
      .addEdge o a, .addEdge b o, .addEdge o c]
    let g := changes.foldl Graph.change {}
    let h := g.change (.addEdge a b)
    (∃! p, g.IsPath a c p) ∧ ∃ p, h.IsCycle p := by
  intro o a b c changes g h
  have hg : g.Reachable := Reachable.empty.changes changes
  have hh : h.Reachable := hg.change _
  have htree : g.isTree = true := by decide +kernel
  have hcyclic : ¬ h.isAcyclic = true := by decide +kernel
  obtain ⟨-, hpaths⟩ := (Reachable.acyclic_tree hg).2.mp htree
  rw [(Reachable.acyclic_tree hh).1, not_forall] at hcyclic
  obtain ⟨p, hp⟩ := hcyclic
  exact ⟨hpaths a (by decide) c (by decide), p, not_not.mp hp⟩

end GraphLogic.Graph
