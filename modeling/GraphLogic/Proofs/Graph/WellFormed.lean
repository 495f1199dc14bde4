import GraphLogic.Graph
import Mathlib.Data.List.Nodup

/-!
# Graphs drawn from their vertices and edges

A graph records each edge in the list of edges and in the rows of both ends. It is well-formed
when the rows follow from the two lists: the row of a vertex holds the vertices across its edges,
in the order of the edges (`drawn`), the vertices are distinct, and no two edges have the same
ends (`Simple`).

Each operation is described by what it does to the two lists (`addVertex_drawn`,
`addEdge_drawn`, `removeVertex_drawn`, `removeEdge_drawn`); that the rows agree afterwards is part
of these equations. So whatever is made of a well-formed graph is well-formed.
-/

namespace GraphLogic

namespace Edge

variable {e f : Edge} {a b v w : Vertex}

theorem joins_iff :
    e.joins a b = true ↔ e.source = a ∧ e.target = b ∨ e.source = b ∧ e.target = a := by
  simp [joins]

theorem joins_comm (e : Edge) (a b : Vertex) : e.joins a b = e.joins b a :=
  Bool.or_comm ..

/-- Having the same ends is symmetric. -/
theorem joins_swap (e f : Edge) :
    e.joins f.source f.target = f.joins e.source e.target := by
  rw [Bool.eq_iff_iff, joins_iff, joins_iff]
  constructor <;> rintro (⟨h₁, h₂⟩ | ⟨h₁, h₂⟩) <;> simp [h₁, h₂]

theorem contains_iff : e.contains v = true ↔ e.source = v ∨ e.target = v := by
  simp [contains]

theorem contains_iff_of_joins (hj : e.joins a b = true) : e.contains v = true ↔ a = v ∨ b = v := by
  rw [contains_iff]
  rcases joins_iff.mp hj with ⟨rfl, rfl⟩ | ⟨rfl, rfl⟩
  · rfl
  · exact or_comm

/-- The ends of an edge, in its direction. -/
def ends (e : Edge) : Vertex × Vertex := (e.source, e.target)

/-- The other end of an edge with the end `v`. -/
def across? (e : Edge) (v : Vertex) : Option Vertex :=
  if e.source = v then some e.target else if e.target = v then some e.source else none

theorem across?_eq_some_iff : e.across? v = some w ↔ e.joins v w = true := by
  have hd := e.distinct
  unfold across?
  rw [joins_iff]
  split
  · rename_i h
    subst h
    simp [hd, eq_comm]
  · rename_i h
    split <;> simp_all

theorem across?_eq_none_iff : e.across? v = none ↔ e.contains v = false := by
  rw [Bool.eq_false_iff, ne_eq, contains_iff]
  unfold across?
  split
  · simp_all
  · split <;> simp_all

end Edge

/-- The list of edges has an edge with the ends of `e`, as `contains` sees it. -/
theorem contains_edge_iff {es : List Edge} {e : Edge} :
    es.contains e = true ↔ ∃ f ∈ es, f.joins e.source e.target = true := by
  rw [List.contains_iff_exists_mem_beq]
  exact exists_congr fun f => and_congr_right fun _ => by rw [← Edge.joins_swap]; rfl

namespace Graph

variable {vs : List Vertex} {es : List Edge} {e : Edge} {g h : Graph}
  {a b u v w : Vertex} {i j : VertexId}

/-! ## Rows from edges -/

/-- The vertices across the edges at `v`, in the order of the edges. -/
def across (es : List Edge) (v : Vertex) : List Vertex := es.filterMap (·.across? v)

theorem mem_across_iff : w ∈ across es v ↔ ∃ e ∈ es, e.joins v w = true := by
  unfold across
  rw [List.mem_filterMap]
  exact exists_congr fun e => and_congr_right fun _ => Edge.across?_eq_some_iff

theorem across_append (es fs : List Edge) (v : Vertex) :
    across (es ++ fs) v = across es v ++ across fs v :=
  List.filterMap_append

theorem across_eq_nil (hv : ∀ e ∈ es, e.contains v = false) : across es v = [] :=
  List.filterMap_eq_nil_iff.mpr fun e he => Edge.across?_eq_none_iff.mpr (hv e he)

/-- The graph with the vertices `vs` and the edges `es`, both in this order. -/
def drawn (vs : List Vertex) (es : List Edge) : Graph where
  rows := vs.map fun v => (v, across es v)
  edges := es

@[simp] theorem vertices_drawn (vs : List Vertex) (es : List Edge) :
    (drawn vs es).vertices = vs := by
  simp [drawn, vertices, Function.comp_def]

@[simp] theorem edges_drawn (vs : List Vertex) (es : List Edge) : (drawn vs es).edges = es := rfl

theorem hasVertex_iff : g.hasVertex v = true ↔ v ∈ g.vertices := by
  simp [hasVertex]

theorem neighbors?_drawn (vs : List Vertex) (es : List Edge) (v : Vertex) :
    (drawn vs es).neighbors? v = if v ∈ vs then some (across es v) else none := by
  unfold neighbors? drawn
  induction vs with
  | nil => rfl
  | cons u vs ih =>
    rw [List.map_cons, List.lookup_cons]
    by_cases h : v = u
    · simp [h]
    · simp only [beq_eq_false_iff_ne.mpr h, List.mem_cons, h, false_or]
      exact ih

/-! ## Simple graphs -/

/-- The vertices and edges of a simple graph. -/
structure Simple (vs : List Vertex) (es : List Edge) : Prop where
  vertices_nodup : vs.Nodup
  /-- No two edges have the same ends. -/
  edges_apart : es.Pairwise fun e f => e.joins f.source f.target = false
  ends_mem : ∀ e ∈ es, e.source ∈ vs ∧ e.target ∈ vs

/-- The rows of the graph follow from its vertices and edges, and those make a simple graph. -/
def WellFormed (g : Graph) : Prop := ∃ vs es, Simple vs es ∧ g = drawn vs es

theorem Simple.wellFormed (hs : Simple vs es) : (drawn vs es).WellFormed := ⟨vs, es, hs, rfl⟩

theorem WellFormed.simple (hg : g.WellFormed) : Simple g.vertices g.edges := by
  obtain ⟨vs, es, hs, rfl⟩ := hg
  rwa [vertices_drawn, edges_drawn]

theorem Simple.mem_of_joins (hs : Simple vs es) (he : e ∈ es) (hj : e.joins a b = true) :
    a ∈ vs ∧ b ∈ vs := by
  obtain ⟨hsource, htarget⟩ := hs.ends_mem e he
  rcases Edge.joins_iff.mp hj with ⟨rfl, rfl⟩ | ⟨rfl, rfl⟩
  · exact ⟨hsource, htarget⟩
  · exact ⟨htarget, hsource⟩

/-- Two edges with a common end lead to different vertices. -/
theorem Simple.across_nodup (hs : Simple vs es) (v : Vertex) : (across es v).Nodup := by
  unfold across List.Nodup
  rw [List.pairwise_filterMap]
  refine hs.edges_apart.imp fun {e f} hef w hw w' hw' heq => ?_
  subst heq
  rw [Edge.across?_eq_some_iff] at hw hw'
  rw [Bool.eq_false_iff] at hef
  refine hef ?_
  rcases Edge.joins_iff.mp hw' with ⟨rfl, rfl⟩ | ⟨rfl, rfl⟩
  · exact hw
  · rwa [Edge.joins_comm]

theorem simple_nil : Simple [] [] := ⟨List.nodup_nil, .nil, by simp⟩

theorem wellFormed_empty : WellFormed {} := simple_nil.wellFormed

/-! ## The operations -/

theorem addVertex_drawn (hs : Simple vs es) (hv : v ∉ vs) :
    (drawn vs es).addVertex v = .ok (drawn (vs ++ [v]) es) := by
  have hisolated : across es v = [] := by
    refine across_eq_nil ?_
    intro e he
    rw [Bool.eq_false_iff, ne_eq, Edge.contains_iff]
    rintro (rfl | rfl)
    · exact hv (hs.ends_mem e he).1
    · exact hv (hs.ends_mem e he).2
  unfold addVertex
  rw [if_neg (by rwa [hasVertex_iff, vertices_drawn])]
  simp [drawn, hisolated]

theorem Simple.addVertex (hs : Simple vs es) (hv : v ∉ vs) : Simple (vs ++ [v]) es where
  vertices_nodup := by
    rw [List.nodup_append]
    refine ⟨hs.vertices_nodup, List.nodup_cons.mpr ⟨List.not_mem_nil, List.nodup_nil⟩, ?_⟩
    rintro u hu w hw rfl
    exact hv (List.mem_singleton.mp hw ▸ hu)
  edges_apart := hs.edges_apart
  ends_mem e he := ⟨List.mem_append_left _ (hs.ends_mem e he).1,
    List.mem_append_left _ (hs.ends_mem e he).2⟩

theorem link_drawn (vs : List Vertex) (es : List Edge) (e : Edge) :
    (drawn vs es).link e = drawn vs (es ++ [e]) := by
  unfold link drawn
  congr 1
  rw [List.map_map]
  refine List.map_congr_left ?_
  intro v _
  rw [across_append]
  simp only [Function.comp_apply, across, List.filterMap_cons, List.filterMap_nil, Edge.across?,
    eq_comm (a := v)]
  split
  · rfl
  · split <;> simp

/-- The checks of `addEdge` in their order. -/
theorem addEdge_eq (g : Graph) (a b : Vertex) :
    g.addEdge a b =
      if hab : a = b then .error (.selfLoop a)
      else if a ∉ g.vertices then .error (.unknownVertex a)
      else if b ∉ g.vertices then .error (.unknownVertex b)
      else if g.edges.contains ⟨a, b, hab⟩ then .error (.duplicateEdge ⟨a, b, hab⟩)
      else .ok (g.link ⟨a, b, hab⟩) := by
  unfold addEdge Edge.ofEnds
  by_cases hab : a = b
  · rw [dif_pos hab, dif_pos hab]
    rfl
  rw [dif_neg hab, dif_neg hab]
  by_cases ha : a ∈ g.vertices
  · by_cases hb : b ∈ g.vertices
    · rw [if_neg (not_not_intro ha), if_neg (not_not_intro hb)]
      cases hc : g.edges.contains ⟨a, b, hab⟩ <;>
        simp [bind, Except.bind, hasVertex_iff.mpr ha, hasVertex_iff.mpr hb, hc] <;> rfl
    · rw [if_neg (not_not_intro ha), if_pos hb]
      simp [bind, Except.bind, hasVertex_iff.mpr ha, mt hasVertex_iff.mp hb]
      rfl
  · rw [if_pos ha]
    simp [bind, Except.bind, mt hasVertex_iff.mp ha]
    rfl

theorem addEdge_eq_ok_iff :
    g.addEdge a b = .ok h ↔ ∃ e : Edge, e.source = a ∧ e.target = b ∧ a ∈ g.vertices ∧
      b ∈ g.vertices ∧ (∀ f ∈ g.edges, f.joins a b = false) ∧ h = g.link e := by
  rw [addEdge_eq]
  constructor
  · intro hok
    split at hok
    · cases hok
    · rename_i hab
      split_ifs at hok with ha hb hc
      cases hok
      refine ⟨⟨a, b, hab⟩, rfl, rfl, ha, hb, fun f hf => ?_, rfl⟩
      rw [Bool.eq_false_iff]
      exact fun hj => hc (contains_edge_iff.mpr ⟨f, hf, hj⟩)
  · rintro ⟨e, rfl, rfl, ha, hb, hnew, rfl⟩
    rw [dif_neg e.distinct, if_neg (not_not_intro ha), if_neg (not_not_intro hb), if_neg]
    rw [contains_edge_iff]
    rintro ⟨f, hf, hj⟩
    exact Bool.false_ne_true ((hnew f hf).symm.trans hj)

theorem Simple.addEdge (hs : Simple vs es) (hsource : e.source ∈ vs) (htarget : e.target ∈ vs)
    (hnew : ∀ f ∈ es, f.joins e.source e.target = false) : Simple vs (es ++ [e]) where
  vertices_nodup := hs.vertices_nodup
  edges_apart := by
    rw [List.pairwise_append]
    refine ⟨hs.edges_apart, List.pairwise_singleton .., fun f hf e' he' => ?_⟩
    rw [List.mem_singleton.mp he']
    exact hnew f hf
  ends_mem f hf := by
    rcases List.mem_append.mp hf with hf | hf
    · exact hs.ends_mem f hf
    · rw [List.mem_singleton.mp hf]
      exact ⟨hsource, htarget⟩

/-- Fewer edges, among vertices that still hold their ends. -/
theorem Simple.sublist {vs' : List Vertex} {es' : List Edge} (hs : Simple vs es)
    (hvs : vs'.Sublist vs) (hes : es'.Sublist es)
    (hends : ∀ e ∈ es', e.source ∈ vs' ∧ e.target ∈ vs') : Simple vs' es' where
  vertices_nodup := hs.vertices_nodup.sublist hvs
  edges_apart := hs.edges_apart.sublist hes
  ends_mem := hends

/-- Keeping the edges that pass `p` keeps the vertices across that pass `q`, where the two tests
agree on the edges at `v`. -/
theorem across_filter {p : Edge → Bool} {q : Vertex → Bool} (es : List Edge)
    (h : ∀ (e : Edge) w, e.joins v w = true → p e = q w) :
    across (es.filter p) v = (across es v).filter q := by
  unfold across
  induction es with
  | nil => rfl
  | cons e es ih =>
    cases hw : e.across? v with
    | none =>
      simp only [List.filter_cons, List.filterMap_cons, hw, ← ih]
      split <;> simp only [List.filterMap_cons, hw]
    | some w =>
      have hpq := h e w (Edge.across?_eq_some_iff.mp hw)
      simp only [List.filter_cons, List.filterMap_cons, hw, hpq, ← ih]
      split <;> simp only [List.filterMap_cons, hw]

/-- Without the edges at `v`, without `v` across. -/
theorem across_filter_contains (es : List Edge) (huv : u ≠ v) :
    across (es.filter fun e => !e.contains v) u = (across es u).filter (· != v) := by
  apply across_filter
  intro e w hw
  rw [Bool.eq_iff_iff, Bool.not_eq_true', Bool.eq_false_iff, ne_eq, Edge.contains_iff_of_joins hw,
    bne_iff_ne, not_or]
  exact and_iff_right huv

theorem mem_across_comm : w ∈ across es v ↔ v ∈ across es w := by
  rw [mem_across_iff, mem_across_iff]
  exact exists_congr fun e => by rw [Edge.joins_comm]

theorem removeVertex_drawn (hs : Simple vs es) (hv : v ∈ vs) :
    (drawn vs es).removeVertex v =
      .ok (drawn (vs.filter (· != v)) (es.filter fun e => !e.contains v)) := by
  have hrow : ∀ u ∈ vs.filter (· != v),
      (if u ∈ across es v then (u, (across es u).erase v) else (u, across es u)) =
        (u, across (es.filter fun e => !e.contains v) u) := by
    intro u hu
    have huv : u ≠ v := by simpa using (List.mem_filter.mp hu).2
    rw [across_filter_contains es huv]
    split
    · rw [(hs.across_nodup u).erase_eq_filter]
    · rename_i hnot
      rw [List.filter_eq_self.mpr]
      intro w hw
      rw [bne_iff_ne]
      rintro rfl
      exact hnot (mem_across_comm.mp hw)
  unfold removeVertex
  rw [neighbors?_drawn, if_pos hv]
  simp only [drawn, List.filter_map, List.map_map]
  congr 2
  exact List.map_congr_left hrow

theorem Simple.removeVertex (hs : Simple vs es) (v : Vertex) :
    Simple (vs.filter (· != v)) (es.filter fun e => !e.contains v) := by
  refine hs.sublist List.filter_sublist List.filter_sublist ?_
  intro e he
  obtain ⟨he, hv⟩ := List.mem_filter.mp he
  rw [Bool.not_eq_true', Bool.eq_false_iff, ne_eq, Edge.contains_iff, not_or] at hv
  obtain ⟨hsource, htarget⟩ := hs.ends_mem e he
  exact ⟨List.mem_filter.mpr ⟨hsource, bne_iff_ne.mpr hv.1⟩,
    List.mem_filter.mpr ⟨htarget, bne_iff_ne.mpr hv.2⟩⟩

/-- Without the edge to `w`, without `w` across. -/
theorem Simple.across_erase (hs : Simple vs es) (hvw : v ≠ w) :
    (across es v).erase w = across (es.filter fun e => !e.joins v w) v := by
  have htest : ∀ (e : Edge) u, e.joins v u = true → (!e.joins v w) = (u != w) := by
    intro e u hu
    rcases Edge.joins_iff.mp hu with ⟨rfl, rfl⟩ | ⟨rfl, rfl⟩ <;>
      simp [Edge.joins, bne, e.distinct, e.distinct.symm, hvw]
  rw [across_filter es htest, (hs.across_nodup v).erase_eq_filter]

theorem removeEdge_drawn (hs : Simple vs es) (hab : a ≠ b)
    (hj : ∃ e ∈ es, e.joins a b = true) :
    (drawn vs es).removeEdge a b = .ok (drawn vs (es.filter fun e => !e.joins a b)) := by
  have hrow : ∀ v ∈ vs,
      (if v = a then (v, (across es v).erase b)
        else if v = b then (v, (across es v).erase a) else (v, across es v)) =
        (v, across (es.filter fun e => !e.joins a b) v) := by
    intro v _
    split
    · rename_i hva
      subst hva
      rw [hs.across_erase hab]
    · rename_i hva
      split
      · rename_i hvb
        subst hvb
        have hcomm : (fun e : Edge => !e.joins a v) = fun e => !e.joins v a := by
          funext e
          rw [Edge.joins_comm]
        rw [hs.across_erase hva, hcomm]
      · rename_i hvb
        have htest : ∀ (e : Edge) w, e.joins v w = true → (!e.joins a b) = true := by
          intro e w hw
          rw [Bool.not_eq_true', Bool.eq_false_iff, ne_eq, Edge.joins_iff]
          rcases Edge.joins_iff.mp hw with ⟨rfl, rfl⟩ | ⟨rfl, rfl⟩ <;> simp [hva, hvb]
        rw [across_filter es htest, List.filter_eq_self.mpr fun _ _ => rfl]
  have hedge : (drawn vs es).edges.contains ⟨a, b, hab⟩ = true := contains_edge_iff.mpr hj
  have hbne : ∀ e : Edge, (e != ⟨a, b, hab⟩) = !e.joins a b := fun e => rfl
  unfold removeEdge Edge.ofEnds
  simp only [hab, hedge, dite_false, bind, Except.bind, Bool.not_true, Bool.false_eq_true, if_false,
    pure, Except.pure, hbne]
  simp only [drawn, List.map_map]
  congr 2
  exact List.map_congr_left hrow

theorem Simple.removeEdge (hs : Simple vs es) (a b : Vertex) :
    Simple vs (es.filter fun e => !e.joins a b) :=
  hs.sublist (List.Sublist.refl _) List.filter_sublist fun e he =>
    hs.ends_mem e (List.mem_filter.mp he).1

/-! ## Looking at a well-formed graph -/

theorem WellFormed.neighbors?_eq (hg : g.WellFormed) (v : Vertex) :
    g.neighbors? v = if v ∈ g.vertices then some (across g.edges v) else none := by
  obtain ⟨vs, es, -, rfl⟩ := hg
  rw [neighbors?_drawn, vertices_drawn, edges_drawn]

theorem WellFormed.neighbors_eq (hg : g.WellFormed) (hv : v ∈ g.vertices) :
    g.neighbors v = .ok (across g.edges v) := by
  unfold neighbors
  rw [hg.neighbors?_eq, if_pos hv]

theorem WellFormed.hasEdge_iff (hg : g.WellFormed) :
    g.hasEdge a b = true ↔ ∃ e ∈ g.edges, e.joins a b = true := by
  unfold hasEdge
  rw [hg.neighbors?_eq]
  by_cases ha : a ∈ g.vertices
  · simp only [if_pos ha, List.contains_iff_mem, mem_across_iff]
  · simp only [if_neg ha, Bool.false_eq_true, false_iff]
    rintro ⟨e, he, hj⟩
    exact ha (hg.simple.mem_of_joins he hj).1

theorem WellFormed.mem_across_iff_hasEdge (hg : g.WellFormed) :
    w ∈ across g.edges v ↔ g.hasEdge v w = true := by
  rw [mem_across_iff, hg.hasEdge_iff]

theorem WellFormed.mem_of_hasEdge (hg : g.WellFormed) (hab : g.hasEdge a b = true) :
    a ∈ g.vertices ∧ b ∈ g.vertices := by
  obtain ⟨e, he, hj⟩ := hg.hasEdge_iff.mp hab
  exact hg.simple.mem_of_joins he hj

theorem WellFormed.hasEdge_comm (hg : g.WellFormed) (a b : Vertex) :
    g.hasEdge a b = g.hasEdge b a := by
  rw [Bool.eq_iff_iff, hg.hasEdge_iff, hg.hasEdge_iff]
  exact exists_congr fun e => by rw [Edge.joins_comm]

theorem vertex?_eq (g : Graph) (i : VertexId) : g.vertex? i = g.vertices[i]? := by
  unfold vertex? vertices
  rw [List.getElem?_map]

theorem vertexCount_eq (g : Graph) : g.vertexCount = g.vertices.length := by
  unfold vertexCount vertices
  rw [List.length_map]

theorem lt_vertexCount_iff : i < g.vertexCount ↔ ∃ v, g.vertex? i = some v := by
  rw [vertex?_eq, vertexCount_eq]
  constructor
  · intro hi
    exact ⟨g.vertices[i], List.getElem?_eq_getElem hi⟩
  · rintro ⟨v, hv⟩
    exact (List.getElem?_eq_some_iff.mp hv).1

theorem WellFormed.vertexId?_eq_some_iff (hg : g.WellFormed) :
    g.vertexId? v = some i ↔ g.vertex? i = some v := by
  unfold vertexId?
  rw [vertex?_eq, List.idxOf?_eq_some_iff, List.getElem?_eq_some_iff]
  constructor
  · rintro ⟨hi, hv, -⟩
    exact ⟨hi, hv⟩
  · rintro ⟨hi, rfl⟩
    refine ⟨hi, rfl, fun j hj heq => ?_⟩
    have := (hg.simple.vertices_nodup.getElem_inj_iff).mp heq
    omega

theorem exists_vertexId?_iff : (∃ i, g.vertexId? v = some i) ↔ v ∈ g.vertices := by
  unfold vertexId?
  rw [← Option.isSome_iff_exists, List.isSome_idxOf?]

theorem WellFormed.neighborsAt_eq (hg : g.WellFormed) (hi : g.vertex? i = some a) :
    g.neighborsAt i = across g.edges a := by
  obtain ⟨vs, es, -, rfl⟩ := hg
  rw [vertex?_eq, vertices_drawn] at hi
  simp [neighborsAt, drawn, hi]

theorem WellFormed.adjacent_eq_hasEdge (hg : g.WellFormed) (hi : g.vertex? i = some a)
    (hj : g.vertex? j = some b) : g.adjacent i j = g.hasEdge a b := by
  have ha : a ∈ g.vertices := List.mem_of_getElem? (vertex?_eq g i ▸ hi)
  unfold adjacent isAmong hasEdge
  rw [hj, hg.neighborsAt_eq hi, hg.neighbors?_eq, if_pos ha]

theorem lt_of_isAmong {vs : List Vertex} (h : g.isAmong vs j = true) : j < g.vertexCount := by
  rw [lt_vertexCount_iff]
  unfold isAmong at h
  split at h
  · rename_i v hv
    exact ⟨v, hv⟩
  · cases h

/-- Only vertices are adjacent. -/
theorem adjacent_lt (h : g.adjacent i j = true) : i < g.vertexCount ∧ j < g.vertexCount := by
  refine ⟨?_, lt_of_isAmong h⟩
  by_contra hi
  have hrow : g.neighborsAt i = [] := by
    have hnone : g.rows[i]? = none := List.getElem?_eq_none (Nat.le_of_not_lt hi)
    simp [neighborsAt, hnone]
  rw [adjacent, hrow, isAmong] at h
  split at h <;> simp at h

theorem WellFormed.adjacent_comm (hg : g.WellFormed) (i j : VertexId) :
    g.adjacent i j = g.adjacent j i := by
  have himp : ∀ i j, g.adjacent i j = true → g.adjacent j i = true := by
    intro i j h
    obtain ⟨a, ha⟩ := lt_vertexCount_iff.mp (adjacent_lt h).1
    obtain ⟨b, hb⟩ := lt_vertexCount_iff.mp (adjacent_lt h).2
    rwa [hg.adjacent_eq_hasEdge hb ha, hg.hasEdge_comm, ← hg.adjacent_eq_hasEdge ha hb]
  exact Bool.eq_iff_iff.mpr ⟨himp i j, himp j i⟩

/-- Edges have distinct ends. -/
theorem WellFormed.adjacent_self (hg : g.WellFormed) (i : VertexId) : g.adjacent i i = false := by
  rw [Bool.eq_false_iff]
  intro h
  obtain ⟨a, ha⟩ := lt_vertexCount_iff.mp (adjacent_lt h).1
  rw [hg.adjacent_eq_hasEdge ha ha, hg.hasEdge_iff] at h
  obtain ⟨e, -, hjoins⟩ := h
  rw [Edge.joins_iff, or_self] at hjoins
  exact e.distinct (hjoins.1.trans hjoins.2.symm)

/-! ## Whatever is made of a well-formed graph is well-formed -/

theorem WellFormed.addVertex (hg : g.WellFormed) (hok : g.addVertex v = .ok h) :
    h.WellFormed := by
  obtain ⟨vs, es, hs, rfl⟩ := hg
  by_cases hv : v ∈ vs
  · simp [Graph.addVertex, hasVertex, hv] at hok
  · rw [addVertex_drawn hs hv] at hok
    cases hok
    exact (hs.addVertex hv).wellFormed

theorem WellFormed.addEdge (hg : g.WellFormed) (hok : g.addEdge a b = .ok h) :
    h.WellFormed := by
  obtain ⟨vs, es, hs, rfl⟩ := hg
  obtain ⟨e, rfl, rfl, hsource, htarget, hnew, rfl⟩ := addEdge_eq_ok_iff.mp hok
  rw [vertices_drawn] at hsource htarget
  rw [link_drawn]
  exact (hs.addEdge hsource htarget hnew).wellFormed

theorem WellFormed.removeVertex (hg : g.WellFormed) (hok : g.removeVertex v = .ok h) :
    h.WellFormed := by
  obtain ⟨vs, es, hs, rfl⟩ := hg
  by_cases hv : v ∈ vs
  · rw [removeVertex_drawn hs hv] at hok
    cases hok
    exact (hs.removeVertex v).wellFormed
  · simp [Graph.removeVertex, neighbors?_drawn, hv] at hok

theorem WellFormed.removeEdge (hg : g.WellFormed) (hok : g.removeEdge a b = .ok h) :
    h.WellFormed := by
  obtain ⟨vs, es, hs, rfl⟩ := hg
  by_cases hab : a = b
  · simp [Graph.removeEdge, Edge.ofEnds, hab, bind, Except.bind] at hok
  by_cases hj : ∃ e ∈ es, e.joins a b = true
  · rw [removeEdge_drawn hs hab hj] at hok
    cases hok
    exact (hs.removeEdge a b).wellFormed
  · have hedge : es.contains ⟨a, b, hab⟩ = false := by
      rw [Bool.eq_false_iff, ne_eq, contains_edge_iff]
      exact hj
    simp [Graph.removeEdge, Edge.ofEnds, hab, hedge, bind, Except.bind, throw, throwThe,
      MonadExceptOf.throw] at hok

theorem WellFormed.orSelf {changed : Except GraphError Graph} (hg : g.WellFormed)
    (hok : ∀ h, changed = .ok h → h.WellFormed) : (g.orSelf changed).WellFormed := by
  cases changed with
  | error _ => exact hg
  | ok h => exact hok h rfl

theorem WellFormed.foldl {α : Type} {f : Graph → α → Graph}
    (hf : ∀ g x, g.WellFormed → (f g x).WellFormed) (hg : g.WellFormed) (xs : List α) :
    (xs.foldl f g).WellFormed :=
  List.foldlRecOn xs f hg fun h hh x _ => hf h x hh

end Graph

end GraphLogic
