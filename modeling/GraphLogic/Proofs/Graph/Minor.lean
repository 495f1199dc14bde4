import GraphLogic.Proofs.Graph.Reachable
import Mathlib.Data.List.Induction

/-!
# Elimination and contraction of drawn graphs

**Theorem (`contractEdge_drawn`).** Contracting an edge takes both ends out of the vertices and
puts the merged vertex behind the others; the edges at the ends are taken out, and one edge from
the merged vertex to each neighbour of either end is put behind the others (`star`).

Each of the steps of a contraction could be refused by itself, and none is: the ends are vertices,
the label of the merged vertex is new (`freshLabel_not_mem`), and so are its edges, as no neighbour
is listed twice (`Simple.star`). Elimination has the one step that could be refused, the removal of
the vertex, and adding edges keeps all vertices (`vertices_connectAll`).
-/

namespace GraphLogic

theorem Edge.ne_of_joins {e : Edge} {a b : Vertex} (hj : e.joins a b = true) : a ≠ b := by
  rintro rfl
  rcases joins_iff.mp hj with ⟨h, h'⟩ | ⟨h, h'⟩ <;> exact e.distinct (h.trans h'.symm)

namespace Graph

variable {vs : List Vertex} {es : List Edge} {g h : Graph} {a b m v : Vertex} {taken : List String}
  {label : String}

theorem exists_removeVertex (hg : g.WellFormed) (hv : v ∈ g.vertices) :
    ∃ h, g.removeVertex v = .ok h := by
  obtain ⟨vs, es, hs, rfl⟩ := hg
  exact ⟨_, removeVertex_drawn hs (by rwa [vertices_drawn] at hv)⟩

theorem neighbors_eq_error (hg : g.WellFormed) (hv : v ∉ g.vertices) :
    g.neighbors v = .error (.unknownVertex v) := by
  unfold neighbors
  rw [hg.neighbors?_eq, if_neg hv]

/-! ## New labels -/

theorem length_le_freshLabel (taken : List String) (label : String) :
    label.length ≤ (freshLabel taken label).length := by
  fun_induction freshLabel taken label with
  | case1 taken label hmem ih =>
    rw [String.length_append] at ih
    omega
  | case2 => exact Nat.le_refl _

/-- The label is new: priming goes on until it is, and never comes back to a label that was
tried. -/
theorem freshLabel_not_mem (taken : List String) (label : String) :
    freshLabel taken label ∉ taken := by
  fun_induction freshLabel taken label with
  | case1 taken label hmem ih =>
    have hlonger := length_le_freshLabel (taken.erase label) (label ++ "'")
    have hne : freshLabel (taken.erase label) (label ++ "'") ≠ label := by
      intro heq
      rw [heq, String.length_append] at hlonger
      have : "'".length = 1 := rfl
      omega
    rwa [List.mem_erase_of_ne hne] at ih
  | case2 taken label hmem => exact hmem

/-! ## Elimination -/

theorem vertices_link (g : Graph) (e : Edge) : (g.link e).vertices = g.vertices := by
  unfold link vertices
  rw [List.map_map]
  refine List.map_congr_left fun row _ => ?_
  dsimp only [Function.comp_apply]
  split_ifs <;> rfl

theorem vertices_orSelf_addEdge (g : Graph) (a b : Vertex) :
    (g.orSelf (g.addEdge a b)).vertices = g.vertices := by
  cases hadd : g.addEdge a b with
  | error e => rfl
  | ok h =>
    obtain ⟨e, -, -, -, -, -, rfl⟩ := addEdge_eq_ok_iff.mp hadd
    exact vertices_link g e

theorem vertices_foldl_addEdge (g : Graph) (v : Vertex) (us : List Vertex) :
    (us.foldl (fun h u => h.orSelf (h.addEdge v u)) g).vertices = g.vertices :=
  List.foldlRecOn us _ (motive := fun h => h.vertices = g.vertices) rfl
    fun h hh u _ => (vertices_orSelf_addEdge h v u).trans hh

theorem vertices_connectAll (g : Graph) (us : List Vertex) :
    (g.connectAll us).vertices = g.vertices := by
  induction us generalizing g with
  | nil => rfl
  | cons u us ih => exact (ih _).trans (vertices_foldl_addEdge g u us)

/-! ## Lists without repetitions -/

theorem eraseDups_concat {α : Type} [DecidableEq α] (as : List α) (a : α) :
    (as ++ [a]).eraseDups = if a ∈ as then as.eraseDups else as.eraseDups ++ [a] := by
  rw [List.eraseDups_append]
  by_cases h : a ∈ as <;> simp [List.removeAll, List.eraseDups_cons, h]

theorem nodup_eraseDups {α : Type} [DecidableEq α] (as : List α) : as.eraseDups.Nodup := by
  induction as using List.reverseRecOn with
  | nil => exact List.nodup_nil
  | append_singleton as a ih =>
    rw [eraseDups_concat]
    split
    · exact ih
    · rename_i ha
      rw [← List.concat_eq_append]
      exact ih.concat fun h => ha (List.mem_eraseDups.mp h)

/-! ## Contraction -/

/-- The edges from `m` to the vertices of `us`, in the order of `us`. -/
def star (m : Vertex) (us : List Vertex) (hm : m ∉ us) : List Edge :=
  us.attach.map fun u => ⟨m, u.1, fun heq => hm (heq ▸ u.2)⟩

theorem ends_star {us : List Vertex} (hm : m ∉ us) :
    (star m us hm).map Edge.ends = us.map (m, ·) := by
  unfold star
  rw [List.map_map]
  show us.attach.map (fun u => (m, u.1)) = _
  exact List.attach_map_val

theorem mem_star {us : List Vertex} {hm : m ∉ us} {e : Edge} :
    e ∈ star m us hm ↔ e.source = m ∧ e.target ∈ us := by
  obtain ⟨source, target, hne⟩ := e
  simp [star, eq_comm]

theorem Simple.star {us : List Vertex} (hs : Simple vs es) (hm : m ∉ vs) (hus : us.Nodup)
    (hsub : ∀ u ∈ us, u ∈ vs) :
    Simple (vs ++ [m]) (es ++ Graph.star m us fun h => hm (hsub m h)) where
  vertices_nodup := (hs.addVertex hm).vertices_nodup
  edges_apart := by
    refine List.pairwise_append.mpr ⟨hs.edges_apart, ?_, fun e he f hf => ?_⟩
    · unfold Graph.star
      rw [List.pairwise_map]
      refine (List.nodup_attach.mpr hus).imp fun {u w} huw => ?_
      rw [Bool.eq_false_iff, ne_eq, Edge.joins_iff]
      rintro (⟨-, heq : u.1 = w.1⟩ | ⟨heq : m = w.1, -⟩)
      · exact huw (Subtype.ext heq)
      · exact hm (heq ▸ hsub w.1 w.2)
    · obtain ⟨hsource, -⟩ := mem_star.mp hf
      rw [Bool.eq_false_iff, hsource]
      exact fun hj => hm (hs.mem_of_joins he hj).1
  ends_mem e he := by
    rcases List.mem_append.mp he with he | he
    · exact (hs.addVertex hm).ends_mem e he
    · obtain ⟨rfl, htarget⟩ := mem_star.mp he
      exact ⟨by simp, List.mem_append_left _ (hsub _ htarget)⟩

/-- The vertices other than `a` and `b` with an edge to `a` or `b`, each once. -/
def around (es : List Edge) (a b : Vertex) : List Vertex :=
  ((across es a ++ across es b).filter fun v => v != a && v != b).eraseDups

theorem mem_around :
    v ∈ around es a b ↔ (v ∈ across es a ∨ v ∈ across es b) ∧ v ≠ a ∧ v ≠ b := by
  simp [around, List.mem_eraseDups, or_and_right]

/-- The vertices other than `a` and `b`. -/
def verticesBut (vs : List Vertex) (a b : Vertex) : List Vertex :=
  (vs.filter (· != b)).filter (· != a)

/-- The edges with neither the end `a` nor the end `b`. -/
def edgesBut (es : List Edge) (a b : Vertex) : List Edge :=
  (es.filter fun e => !e.contains b).filter fun e => !e.contains a

/-- The vertex that the ends `a` and `b` of an edge become. -/
def merged (vs : List Vertex) (a b : Vertex) : Vertex :=
  ⟨freshLabel ((verticesBut vs a b).map (·.label)) (a.label ++ b.label)⟩

theorem merged_not_mem (vs : List Vertex) (a b : Vertex) : merged vs a b ∉ verticesBut vs a b :=
  fun h => freshLabel_not_mem _ _ (List.mem_map_of_mem (f := Vertex.label) h)

theorem Simple.mem_verticesBut (hs : Simple vs es) (hv : v ∈ around es a b) :
    v ∈ verticesBut vs a b := by
  obtain ⟨hacross, hva, hvb⟩ := mem_around.mp hv
  have hmem : v ∈ vs := by
    rcases hacross with h | h <;>
    · obtain ⟨e, he, hj⟩ := mem_across_iff.mp h
      exact (hs.mem_of_joins he hj).2
  simp [verticesBut, hmem, hva, hvb]

/-- **Contraction never fails halfway.** Contracting an edge takes its ends and the edges at them
out, and puts the merged vertex, with an edge to each neighbour that the ends had, behind all
others. -/
theorem contractEdge_drawn (hs : Simple vs es) (hj : ∃ e ∈ es, e.joins a b = true) :
    (drawn vs es).contractEdge a b =
      .ok (merged vs a b, drawn (verticesBut vs a b ++ [merged vs a b])
        (edgesBut es a b ++ star (merged vs a b) (around es a b)
          fun h => merged_not_mem vs a b (hs.mem_verticesBut h))) := by
  have hedge : (drawn vs es).hasEdge a b = true := hs.wellFormed.hasEdge_iff.mpr hj
  obtain ⟨e, he, hab⟩ := hj
  obtain ⟨ha, hb⟩ := hs.mem_of_joins he hab
  have hne : a ≠ b := Edge.ne_of_joins hab
  have hs₁ := hs.removeVertex b
  have hs₂ : Simple (verticesBut vs a b) (edgesBut es a b) := hs₁.removeVertex a
  have hremove : (drawn vs es).removeVertex b = .ok (drawn (vs.filter (· != b)) _) :=
    removeVertex_drawn hs hb
  have hremove' : (drawn (vs.filter (· != b)) _).removeVertex a =
      .ok (drawn (verticesBut vs a b) (edgesBut es a b)) :=
    removeVertex_drawn hs₁ (List.mem_filter.mpr ⟨ha, bne_iff_ne.mpr hne⟩)
  have haround : (around es a b).Nodup := nodup_eraseDups _
  have hvertex := addVertex_drawn hs₂ (merged_not_mem vs a b)
  have hedges := foldlM_addEdge_drawn <|
    hs₂.star (merged_not_mem vs a b) haround fun u hu => hs.mem_verticesBut hu
  rw [ends_star, List.foldlM_map] at hedges
  have hmerged : (⟨freshLabel ((verticesBut vs a b).map (·.label)) (a.label ++ b.label)⟩ : Vertex) =
    merged vs a b := rfl
  unfold contractEdge
  rw [hedge, hs.wellFormed.neighbors_eq (by simpa), hs.wellFormed.neighbors_eq (by simpa)]
  simp only [Bool.not_true, Bool.false_eq_true, if_false, bind, Except.bind, pure, Except.pure,
    hremove, hremove', vertices_drawn, hmerged, hvertex]
  exact congrArg (Except.map (merged vs a b, ·)) hedges

theorem exists_contractEdge (hg : g.WellFormed) (hj : ∃ e ∈ g.edges, e.joins a b = true) :
    ∃ r, g.contractEdge a b = .ok r := by
  obtain ⟨vs, es, hs, rfl⟩ := hg
  exact ⟨_, contractEdge_drawn hs hj⟩

theorem contractEdge_eq_error (hg : g.WellFormed) (hj : ¬∃ e ∈ g.edges, e.joins a b = true) :
    g.contractEdge a b = (Edge.ofEnds a b).bind fun e => .error (.missingEdge e) := by
  have hedge : g.hasEdge a b = false := by
    rw [Bool.eq_false_iff, ne_eq, hg.hasEdge_iff]
    exact hj
  unfold contractEdge
  rw [hedge]
  cases Edge.ofEnds a b <;> rfl

end Graph

end GraphLogic
