import GraphLogic.Graph.InPlace
import GraphLogic.Proofs.Graph.Refusal

/-!
# Changes in place are made as a whole or not at all

Carried out in place, a change is a sequence of writes with checks between them, and a check that
fails after a write would leave the graph half changed.

**Theorem (`Reachable.change_atomic`).** On every graph that can be made, every change in place
either succeeds and leaves the changed graph, or is refused for the reason that the vertices and
edges give, and leaves the graph exactly as it was.

Each single change is followed through its writes (`addEdge_runOn`, `removeVertex_runOn`, ...).
Elimination and contraction are sequences of such changes, run one after the other
(`runOn_forM_of_foldlM`); once the first of them has been made, the others are not refused
(`exists_removeVertex`, `exists_contractEdge`).
-/

namespace GraphLogic

open GraphLogic.Graph

variable {α β : Type} {vs : List Vertex} {es : List Edge} {g h : Graph} {a b v : Vertex}
  {e : Edge}

theorem Graph.hasVertex_eq (g : Graph) (v : Vertex) : g.hasVertex v = decide (v ∈ g.vertices) :=
  List.contains_eq_mem ..

namespace Edit

/-! ## Runs -/

@[simp] theorem runOn_bind (m : Edit α) (f : α → Edit β) (g : Graph) :
    (m >>= f).runOn g =
      match m.runOn g with
      | (.ok a, h) => (f a).runOn h
      | (.error e, h) => (.error e, h) := by
  unfold runOn
  rw [run_bind]
  obtain ⟨_ | _, _⟩ := StateT.run (ExceptT.run m) g <;> rfl

@[simp] theorem runOn_pure (x : α) (g : Graph) : (pure x : Edit α).runOn g = (.ok x, g) := rfl

@[simp] theorem runOn_throw (e : GraphError) (g : Graph) :
    (throw e : Edit α).runOn g = (.error e, g) := rfl

@[simp] theorem runOn_liftM (r : Except GraphError α) (g : Graph) :
    (liftM r : Edit α).runOn g = (r, g) := rfl

@[simp] theorem runOn_get (g : Graph) : (get : Edit Graph).runOn g = (.ok g, g) := rfl

@[simp] theorem runOn_set (g h : Graph) : (set h : Edit Unit).runOn g = (.ok (), h) := rfl

@[simp] theorem runOn_modify (f : Graph → Graph) (g : Graph) :
    (modify f : Edit Unit).runOn g = (.ok (), f g) := rfl

@[simp] theorem runOn_ite (c : Prop) [Decidable c] (m n : Edit α) (g : Graph) :
    (if c then m else n).runOn g = if c then m.runOn g else n.runOn g := by
  split <;> rfl

/-- Steps that all succeed, one after the other. -/
theorem runOn_forM {P : Graph → Prop} {m : α → Edit Unit} {f : Graph → α → Graph}
    (hm : ∀ g x, P g → (m x).runOn g = (.ok (), f g x)) (hf : ∀ g x, P g → P (f g x))
    (hg : P g) (xs : List α) : (xs.forM m).runOn g = (.ok (), xs.foldl f g) := by
  induction xs generalizing g with
  | nil => rfl
  | cons x xs ih =>
    show (m x >>= fun _ => xs.forM m).runOn g = _
    rw [runOn_bind, hm g x hg]
    exact ih (hf g x hg)

/-- What a change amounts to that is made as a whole or not at all. -/
def settle (g : Graph) : Except GraphError (α × Graph) → Except GraphError α × Graph
  | .ok (x, h) => (.ok x, h)
  | .error e => (.error e, g)

/-- The same for a change that answers nothing. -/
def settled (g : Graph) (r : Except GraphError Graph) : Except GraphError Unit × Graph :=
  settle g (r.map ((), ·))

/-- Changes that are made as a whole or not at all, as long as none is refused. -/
theorem runOn_forM_of_foldlM {P : Graph → Prop} {m : α → Edit Unit}
    {f : Graph → α → Except GraphError Graph}
    (hm : ∀ g x, P g → (m x).runOn g = settled g (f g x))
    (hf : ∀ g h x, P g → f g x = .ok h → P h) (hg : P g) {xs : List α}
    (hok : xs.foldlM f g = .ok h) : (xs.forM m).runOn g = (.ok (), h) := by
  induction xs generalizing g with
  | nil =>
    cases hok
    rfl
  | cons x xs ih =>
    rw [List.foldlM_cons] at hok
    obtain ⟨h₁, hx, hok⟩ := exists_of_bind_eq_ok hok
    show (m x >>= fun _ => xs.forM m).runOn g = _
    rw [runOn_bind, hm g x hg, hx]
    exact ih (hf g h₁ x hg hx) hok

/-! ## Rows -/

/-- The graph with the given rows and edges. -/
def tabled (vs : List Vertex) (r : Vertex → List Vertex) (es : List Edge) : Graph where
  rows := vs.map fun v => (v, r v)
  edges := es

theorem changeRow_changeRow (hab : a ≠ b) (g : Graph) (f f' : List Vertex → List Vertex) :
    (g.changeRow a f).changeRow b f' =
      { g with rows := g.rows.map fun (v, vs) =>
          if v = a then (v, f vs) else if v = b then (v, f' vs) else (v, vs) } := by
  unfold changeRow
  congr 1
  rw [List.map_map]
  refine List.map_congr_left fun row _ => ?_
  dsimp only [Function.comp_apply]
  split_ifs with h₁ h₂ h₃ <;> first | rfl | exact absurd (h₁.symm.trans h₂) hab

theorem changeRow_tabled (vs : List Vertex) (r : Vertex → List Vertex) (es : List Edge)
    (v : Vertex) (f : List Vertex → List Vertex) :
    (tabled vs r es).changeRow v f = tabled vs (fun u => if u = v then f (r u) else r u) es := by
  unfold changeRow tabled
  congr 1
  rw [List.map_map]
  refine List.map_congr_left fun u _ => ?_
  dsimp only [Function.comp_apply]
  split_ifs <;> rfl

theorem foldl_changeRow_tabled {us : List Vertex} (hus : us.Nodup) (vs : List Vertex)
    (r : Vertex → List Vertex) (es : List Edge) (f : List Vertex → List Vertex) :
    us.foldl (fun g u => g.changeRow u f) (tabled vs r es) =
      tabled vs (fun u => if u ∈ us then f (r u) else r u) es := by
  induction us generalizing r with
  | nil => simp
  | cons w us ih =>
    obtain ⟨hw, hus⟩ := List.nodup_cons.mp hus
    rw [List.foldl_cons, changeRow_tabled, ih hus]
    congr 1
    funext u
    by_cases huw : u = w
    · subst huw
      simp [hw]
    · simp [huw]

/-! ## Single changes -/

theorem addVertex_runOn (g : Graph) (v : Vertex) :
    (addVertex v).runOn g = settle g ((g.addVertex v).map (g.vertexCount, ·)) := by
  unfold addVertex Graph.addVertex
  simp only [runOn_bind, runOn_get, runOn_ite, runOn_throw, runOn_set, runOn_pure]
  split <;> rfl

/-- The rows do not hold the ends of a new edge yet. -/
theorem link_runOn (hnew : ∀ f ∈ es, f.joins e.source e.target = false) :
    (link e).runOn (drawn vs es) = (.ok (), (drawn vs es).link e) := by
  have hsource : e.target ∉ across es e.source := by
    rw [mem_across_iff]
    rintro ⟨f, hf, hj⟩
    exact Bool.false_ne_true ((hnew f hf).symm.trans hj)
  have htarget : e.source ∉ across es e.target := mt mem_across_comm.mp hsource
  have hedge : es.contains e = false := by
    rw [Bool.eq_false_iff, ne_eq, contains_edge_iff, ← mem_across_iff]
    exact hsource
  unfold link Graph.link
  simp only [runOn_bind, runOn_modify, changeRow_changeRow e.distinct, edges_drawn, hedge,
    Bool.false_eq_true, if_false]
  congr 2
  simp only [drawn, List.map_map]
  refine List.map_congr_left fun u _ => ?_
  dsimp only [Function.comp_apply]
  split_ifs with hs ht hs ht <;> simp_all

theorem addEdge_runOn (hg : g.WellFormed) (a b : Vertex) :
    (addEdge a b).runOn g = settled g (g.addEdge a b) := by
  obtain ⟨vs, es, hs, rfl⟩ := hg
  rw [addEdge_eq]
  unfold addEdge Edge.ofEnds
  by_cases hab : a = b
  · rw [dif_pos hab, dif_pos hab]
    rfl
  rw [dif_neg hab, dif_neg hab]
  simp only [runOn_bind, runOn_liftM, runOn_get, runOn_ite, runOn_throw, hasVertex_eq,
    Bool.not_eq_true', decide_eq_false_iff_not]
  by_cases ha : a ∈ (drawn vs es).vertices
  · by_cases hb : b ∈ (drawn vs es).vertices
    · rw [if_neg (not_not_intro ha), if_neg (not_not_intro hb), if_neg (not_not_intro ha),
        if_neg (not_not_intro hb)]
      split_ifs with hc
      · rfl
      · refine link_runOn fun f hf => ?_
        rw [Bool.eq_false_iff]
        exact fun hj => hc (contains_edge_iff.mpr ⟨f, hf, hj⟩)
    · rw [if_neg (not_not_intro ha), if_pos hb, if_neg (not_not_intro ha), if_pos hb]
      rfl
  · rw [if_pos ha, if_pos ha]
    rfl

theorem removeVertex_runOn (hg : g.WellFormed) (v : Vertex) :
    (removeVertex v).runOn g = settled g (g.removeVertex v) := by
  obtain ⟨vs, es, hs, rfl⟩ := hg
  have hrows : (drawn vs es).rows.filter (fun (u, _) => u != v) =
      (vs.filter (· != v)).map fun u => (u, across es u) := by
    simp only [drawn, List.filter_map, Function.comp_def]
  unfold removeVertex Graph.removeVertex
  simp only [runOn_bind, runOn_get, runOn_modify]
  rw [neighbors?_drawn, hrows]
  by_cases hv : v ∈ vs
  · have hloop : (List.forM (across es v) fun u =>
          (modify (·.changeRow u (·.erase v)) : Edit Unit)).runOn
          (tabled (vs.filter (· != v)) (across es) es) = _ :=
      runOn_forM (P := fun _ => True) (fun _ _ _ => rfl) (fun _ _ _ => trivial) trivial _
    rw [foldl_changeRow_tabled (hs.across_nodup v)] at hloop
    rw [if_pos hv]
    simp only [runOn_bind, runOn_modify]
    erw [hloop]
    unfold settled settle tabled
    simp only [Except.map, List.map_map, edges_drawn]
    congr 3
    funext u
    dsimp only [Function.comp_apply]
    split_ifs <;> rfl
  · rw [if_neg hv]
    simp only [runOn_throw]
    rw [List.filter_eq_self.mpr]
    · rfl
    · intro u hu
      rw [bne_iff_ne]
      rintro rfl
      exact hv hu

theorem removeEdge_runOn (g : Graph) (a b : Vertex) :
    (removeEdge a b).runOn g = settled g (g.removeEdge a b) := by
  unfold removeEdge Graph.removeEdge Edge.ofEnds
  by_cases hab : a = b
  · rw [dif_pos hab]
    rfl
  rw [dif_neg hab]
  simp only [runOn_bind, runOn_get, runOn_modify, runOn_liftM, runOn_ite, runOn_throw]
  cases hc : g.edges.contains ⟨a, b, hab⟩ with
  | true =>
    rw [changeRow_changeRow hab]
    simp [bind, Except.bind, hc]
    rfl
  | false =>
    have hnone : g.edges.filter (fun f => f != ⟨a, b, hab⟩) = g.edges := by
      refine List.filter_eq_self.mpr fun f hf => ?_
      rw [bne, Bool.not_eq_true', Bool.eq_false_iff]
      intro hj
      exact Bool.false_ne_true (hc.symm.trans (contains_edge_iff.mpr ⟨f, hf, hj⟩))
    rw [hnone]
    simp [bind, Except.bind, hc]
    rfl

/-! ## Changes of many steps -/

theorem attempt_addEdge_runOn (hg : g.WellFormed) (a b : Vertex) :
    ∃ added, (addEdge a b).attempt.runOn g = (.ok added, g.orSelf (g.addEdge a b)) := by
  show ∃ added, (Except.ok ((addEdge a b).runOn g).1.toBool, ((addEdge a b).runOn g).2) = _
  rw [addEdge_runOn hg]
  cases g.addEdge a b with
  | error e => exact ⟨false, rfl⟩
  | ok h => exact ⟨true, rfl⟩

theorem connectAll_runOn (hg : g.WellFormed) (us : List Vertex) :
    (connectAll us).runOn g = (.ok (), g.connectAll us) := by
  induction us generalizing g with
  | nil => rfl
  | cons u us ih =>
    have hinner := runOn_forM (P := WellFormed)
      (m := fun w => do let _ ← (addEdge u w).attempt)
      (f := fun h w => h.orSelf (h.addEdge u w))
      (fun h w hh => by
        obtain ⟨added, hrun⟩ := attempt_addEdge_runOn hh u w
        rw [runOn_bind, hrun]
        rfl)
      (fun h w hh => hh.orSelf fun _ => hh.addEdge) hg us
    unfold connectAll Graph.connectAll
    rw [runOn_bind, hinner]
    exact ih (hg.foldl (fun h w hh => hh.orSelf fun _ => hh.addEdge) us)

theorem eliminateVertex_runOn (hg : g.WellFormed) (v : Vertex) :
    (eliminateVertex v).runOn g = settled g (g.eliminateVertex v) := by
  unfold eliminateVertex
  simp only [runOn_bind, runOn_get, runOn_liftM]
  by_cases hv : v ∈ g.vertices
  · have haround := hg.neighbors_eq hv
    obtain ⟨h, hremove⟩ := exists_removeVertex (hg.connectAll (across g.edges v))
      (by rwa [vertices_connectAll])
    have hok : g.eliminateVertex v = .ok h := by
      unfold Graph.eliminateVertex
      rw [haround]
      exact hremove
    simp only [haround, connectAll_runOn hg, removeVertex_runOn (hg.connectAll _), hremove, hok]
    rfl
  · have hnone : g.neighbors v = .error (.unknownVertex v) := neighbors_eq_error hg hv
    unfold Graph.eliminateVertex
    rw [hnone]
    rfl

theorem contractEdge_runOn_ok {m : Vertex} (hg : g.WellFormed)
    (hok : g.contractEdge a b = .ok (m, h)) : (contractEdge a b).runOn g = (.ok m, h) := by
  obtain ⟨hedge, around, around', g₁, g₂, g₃, ha, hb, hb₁, ha₂, hlabel, hm, hfold⟩ :=
    contractEdge_steps hok
  have hg₁ := hg.removeVertex hb₁
  have hg₂ := hg₁.removeVertex ha₂
  have hg₃ := hg₂.addVertex hm
  have hrun₁ : (removeVertex b).runOn g = (.ok (), g₁) := by
    rw [removeVertex_runOn hg, hb₁]
    rfl
  have hrun₂ : (removeVertex a).runOn g₁ = (.ok (), g₂) := by
    rw [removeVertex_runOn hg₁, ha₂]
    rfl
  have hrun₃ : (addVertex m).runOn g₂ = (.ok g₂.vertexCount, g₃) := by
    rw [addVertex_runOn, hm]
    rfl
  have hrun₄ := runOn_forM_of_foldlM (fun _ v hg => addEdge_runOn hg m v)
    (fun _ _ _ hg => hg.addEdge) hg₃ hfold
  unfold contractEdge
  simp only [runOn_bind, runOn_get, runOn_liftM, runOn_pure, hedge, ha, hb, hrun₁,
    hrun₂, ← hlabel, hrun₃, hrun₄, Bool.not_true, Bool.false_eq_true, if_false]

theorem contractEdge_runOn (hg : g.WellFormed) (a b : Vertex) :
    (contractEdge a b).runOn g = settle g (g.contractEdge a b) := by
  by_cases hj : ∃ e ∈ g.edges, e.joins a b = true
  · obtain ⟨⟨m, h⟩, hok⟩ := exists_contractEdge hg hj
    rw [contractEdge_runOn_ok hg hok, hok]
    rfl
  · have hedge : g.hasEdge a b = false := by
      rw [Bool.eq_false_iff, ne_eq, hg.hasEdge_iff]
      exact hj
    rw [contractEdge_eq_error hg hj]
    unfold contractEdge
    simp only [runOn_bind, runOn_get, runOn_liftM, runOn_throw, hedge, Bool.not_false, if_true]
    cases Edge.ofEnds a b <;> rfl

end Edit

/-! ## Atomicity -/

namespace Graph

/-- The change in place. -/
def Change.inPlace : Change → Edit Unit
  | addVertex v => do let _ ← Edit.addVertex v
  | addEdge a b => Edit.addEdge a b
  | removeVertex v => Edit.removeVertex v
  | removeEdge a b => Edit.removeEdge a b
  | eliminateVertex v => Edit.eliminateVertex v
  | contractEdge a b => do let _ ← Edit.contractEdge a b
  | complement => modify Graph.complement

theorem Change.inPlace_runOn (hg : g.WellFormed) (c : Change) :
    c.inPlace.runOn g = Edit.settled g (c.apply g) := by
  cases c with
  | addVertex v =>
    unfold inPlace apply
    simp only [Edit.runOn_bind, Edit.addVertex_runOn]
    cases g.addVertex v <;> rfl
  | addEdge a b => exact Edit.addEdge_runOn hg a b
  | removeVertex v => exact Edit.removeVertex_runOn hg v
  | removeEdge a b => exact Edit.removeEdge_runOn g a b
  | eliminateVertex v => exact Edit.eliminateVertex_runOn hg v
  | contractEdge a b =>
    unfold inPlace apply
    simp only [Edit.runOn_bind, Edit.contractEdge_runOn hg]
    cases g.contractEdge a b <;> rfl
  | complement => rfl

/-- **Atomicity.** A change in place of a graph that can be made is refused just when the
vertices and edges give a reason, and then leaves the graph as it was; otherwise all of its steps
succeed, and leave the changed graph. The forms that answer whether the change was made do the
same to the graph. -/
theorem Reachable.change_atomic (hg : g.Reachable) (c : Change) :
    match c.refusal? g with
    | some e =>
      c.apply g = .error e ∧ c.inPlace.runOn g = (.error e, g) ∧
        c.inPlace.attempt.runOn g = (.ok false, g)
    | none =>
      ∃ h, c.apply g = .ok h ∧ c.inPlace.runOn g = (.ok (), h) ∧
        c.inPlace.attempt.runOn g = (.ok true, h) := by
  have hrun := Change.inPlace_runOn hg.wellFormed c
  have hattempt : c.inPlace.attempt.runOn g =
      (.ok (c.inPlace.runOn g).1.toBool, (c.inPlace.runOn g).2) := rfl
  rw [← Change.errorOf?_apply hg.wellFormed, hattempt]
  cases happly : c.apply g with
  | error e =>
    rw [happly] at hrun
    rw [hrun]
    exact ⟨rfl, rfl, rfl⟩
  | ok h =>
    rw [happly] at hrun
    rw [hrun]
    exact ⟨h, rfl, rfl, rfl⟩

/-- The ends of a path of three vertices are not merged, and the path stays as it is. -/
theorem Reachable.change_atomic_path :
    let a : Vertex := ⟨"a"⟩
    let b : Vertex := ⟨"b"⟩
    let c : Vertex := ⟨"c"⟩
    let changes : List Change :=
      [.addVertex a, .addVertex b, .addVertex c, .addEdge a b, .addEdge b c]
    let g := changes.foldl Graph.change {}
    (Change.contractEdge a c).inPlace.runOn g =
      (.error (.missingEdge ⟨a, c, by decide⟩), g) := by
  intro a b c changes g
  have hg : g.Reachable := Reachable.empty.changes changes
  have hrefusal : (Change.contractEdge a c).refusal? g =
      some (.missingEdge ⟨a, c, by decide⟩) := by decide +kernel
  clear_value g
  have hatomic := Reachable.change_atomic hg (.contractEdge a c)
  rw [hrefusal] at hatomic
  exact hatomic.2.1

end Graph

end GraphLogic
