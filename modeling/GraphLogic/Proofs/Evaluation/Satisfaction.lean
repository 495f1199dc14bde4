import GraphLogic.Proofs.Evaluation.Verdict
import GraphLogic.Proofs.Formula.Semantics
import GraphLogic.Proofs.Graph.Reachable

/-!
# Evaluation decides truth

**Theorem (`holds_iff_satisfied`).** On a graph whose ids can all be stored, and with values for
its free variables, every formula of the logic evaluates without a fault, and to `true` exactly
when the graph satisfies it.

The proof is an induction on the formula over its verdict. Nothing has to be said about the
assignment besides that it gives values to the free variables: read as a valuation, it changes
under a binder just as valuations do (`valuation_bindElement`, `valuation_bindSet`).
-/

namespace GraphLogic

namespace Assignment

/-- The values that the assignment gives, as a valuation. -/
def valuation (s : Assignment) : Valuation where
  element name := (s.elements.get? name).getD 0
  set name := ((s.sets.get? name).map VertexSet.toSet).getD ∅

/-- The assignment gives the variable a value of its sort, and a vertex of `g` if it is an element
variable. -/
def Assigns (s : Assignment) (g : Graph) : Variable → Prop
  | ⟨.element, name⟩ => ∃ i < g.vertexCount, s.elements.get? name = some i
  | ⟨.set, name⟩ => ∃ x, s.sets.get? name = some x

variable {s : Assignment} {g : Graph} {name : String} {i : VertexId} {x : VertexSet}
  {y : Variable}

theorem valuation_element (hi : s.elements.get? name = some i) :
    s.valuation.element name = i := by
  show (s.elements.get? name).getD 0 = i
  rw [hi]
  rfl

theorem elementValue_eq (hx : s.Assigns g ⟨.element, name⟩) :
    s.elementValue name = .ok (s.valuation.element name) := by
  obtain ⟨i, -, hi⟩ := hx
  rw [valuation_element hi]
  unfold elementValue
  rw [hi]

theorem exists_setValue (hx : s.Assigns g ⟨.set, name⟩) :
    ∃ x, s.setValue name = .ok x ∧ x.toSet = s.valuation.set name := by
  obtain ⟨x, hx⟩ := hx
  refine ⟨x, ?_, ?_⟩
  · unfold setValue
    rw [hx]
  · show x.toSet = ((s.sets.get? name).map VertexSet.toSet).getD ∅
    rw [hx]
    rfl

theorem valuation_bindElement (s : Assignment) (name : String) (i : VertexId) :
    (s.bindElement name i).2.valuation = s.valuation.withElement name i := by
  unfold valuation Valuation.withElement bindElement
  congr 1
  funext other
  rw [Values.get?_put, Function.update_apply]
  split
  · rename_i h
    rw [if_pos h.symm]
    rfl
  · rename_i h
    rw [if_neg fun h' => h h'.symm]

theorem valuation_bindSet (s : Assignment) (name : String) (x : VertexSet) :
    (s.bindSet name x).2.valuation = s.valuation.withSet name x.toSet := by
  unfold valuation Valuation.withSet bindSet
  congr 1
  funext other
  rw [Values.get?_put, Function.update_apply]
  split
  · rename_i h
    rw [if_pos h.symm]
    rfl
  · rename_i h
    rw [if_neg fun h' => h h'.symm]

/-- Binding a vertex to a name gives a value to this variable and takes none from another. -/
theorem assigns_bindElement (hi : i < g.vertexCount)
    (hy : y ≠ ⟨.element, name⟩ → s.Assigns g y) : (s.bindElement name i).2.Assigns g y := by
  obtain ⟨sort, other⟩ := y
  cases sort with
  | element =>
    show ∃ j < g.vertexCount, (s.elements.put name i).get? other = some j
    rw [Values.get?_put]
    split
    · exact ⟨i, hi, rfl⟩
    · rename_i h
      exact hy fun heq => h (Variable.mk.inj heq).2.symm
  | set => exact hy fun heq => VarSort.noConfusion (Variable.mk.inj heq).1

theorem assigns_bindSet (hy : y ≠ ⟨.set, name⟩ → s.Assigns g y) :
    (s.bindSet name x).2.Assigns g y := by
  obtain ⟨sort, other⟩ := y
  cases sort with
  | element => exact hy fun heq => VarSort.noConfusion (Variable.mk.inj heq).1
  | set =>
    show ∃ z, (s.sets.put name x).get? other = some z
    rw [Values.get?_put]
    split
    · exact ⟨x, rfl⟩
    · rename_i h
      exact hy fun heq => h (Variable.mk.inj heq).2.symm

end Assignment

/-! ## Results that decide propositions -/

/-- The result is no fault, and it is `true` exactly when `P` holds. -/
def Decides (r : Except EvaluationFault Bool) (P : Prop) : Prop :=
  ∃ b, r = .ok b ∧ (b = true ↔ P)

namespace Decides

variable {α : Type} {r r' : Except EvaluationFault Bool} {P Q : Prop}
  {trial : α → Except EvaluationFault Bool} {as : List α} {R : α → Prop}

theorem congr (h : Decides r P) (hPQ : P ↔ Q) : Decides r Q := by
  obtain ⟨b, hb, hP⟩ := h
  exact ⟨b, hb, hP.trans hPQ⟩

theorem eq_true (h : Decides r P) (hP : P) : r = .ok true := by
  obtain ⟨b, rfl, hb⟩ := h
  rw [hb.mpr hP]

theorem eq_false (h : Decides r P) (hP : ¬ P) : r = .ok false := by
  obtain ⟨b, rfl, hb⟩ := h
  cases b with
  | true => exact absurd (hb.mp rfl) hP
  | false => rfl

theorem yes (hP : P) : Decides (.ok true) P := ⟨true, rfl, iff_of_true rfl hP⟩

theorem no (hP : ¬ P) : Decides (.ok false) P := ⟨false, rfl, iff_of_false Bool.false_ne_true hP⟩

theorem not (h : Decides r P) : Decides (do return !(← r)) (¬ P) := by
  by_cases hP : P
  · rw [h.eq_true hP]
    exact no fun hnot => hnot hP
  · rw [h.eq_false hP]
    exact yes hP

theorem and (h : Decides r P) (h' : Decides r' Q) :
    Decides (do if ← r then r' else return false) (P ∧ Q) := by
  by_cases hP : P
  · rw [h.eq_true hP]
    exact h'.congr (and_iff_right hP).symm
  · rw [h.eq_false hP]
    exact no fun hPQ => hP hPQ.1

theorem or (h : Decides r P) (h' : Decides r' Q) :
    Decides (do if ← r then return true else r') (P ∨ Q) := by
  by_cases hP : P
  · rw [h.eq_true hP]
    exact yes (Or.inl hP)
  · rw [h.eq_false hP]
    exact h'.congr (or_iff_right hP).symm

theorem imp (h : Decides r P) (h' : Decides r' Q) :
    Decides (do if ← r then r' else return true) (P → Q) := by
  by_cases hP : P
  · rw [h.eq_true hP]
    exact h'.congr (imp_iff_right hP).symm
  · rw [h.eq_false hP]
    exact yes fun hP' => absurd hP' hP

theorem iff (h : Decides r P) (h' : Decides r' Q) :
    Decides (do return (← r) == (← r')) (P ↔ Q) := by
  obtain ⟨b, rfl, hP⟩ := h
  obtain ⟨b', rfl, hQ⟩ := h'
  refine ⟨b == b', rfl, ?_⟩
  rw [beq_iff_eq, Bool.eq_iff_iff, hP, hQ]

/-- A search for `true` finds out whether some value passes. -/
theorem decideAmong_true (h : ∀ a ∈ as, Decides (trial a) (R a)) :
    Decides (decideAmong true trial as) (∃ a ∈ as, R a) := by
  induction as with
  | nil => exact no fun ⟨_, hmem, _⟩ => List.not_mem_nil hmem
  | cons a as ih =>
    have ha := h a List.mem_cons_self
    have has := ih fun a' ha' => h a' (List.mem_cons_of_mem _ ha')
    have hcons : decideAmong true trial (a :: as) =
        (do if ← trial a then return true else decideAmong true trial as) := by
      rw [decideAmong]
      congr 1
      funext b
      cases b <;> rfl
    rw [hcons]
    refine (ha.or has).congr ?_
    simp only [List.mem_cons, exists_eq_or_imp]

/-- A search for `false` finds out whether all values pass. -/
theorem decideAmong_false (h : ∀ a ∈ as, Decides (trial a) (R a)) :
    Decides (decideAmong false trial as) (∀ a ∈ as, R a) := by
  induction as with
  | nil => exact yes fun _ hmem => absurd hmem List.not_mem_nil
  | cons a as ih =>
    have ha := h a List.mem_cons_self
    have has := ih fun a' ha' => h a' (List.mem_cons_of_mem _ ha')
    have hcons : decideAmong false trial (a :: as) =
        (do if ← trial a then decideAmong false trial as else return false) := by
      rw [decideAmong]
      congr 1
      funext b
      cases b <;> rfl
    rw [hcons]
    exact (ha.and has).congr List.forall_mem_cons.symm

end Decides

/-! ## Atoms -/

section

variable {σ : Type} {g : Graph} {s : Assignment} {x y : Variable}

theorem equates_decides (hsort : x.sort = y.sort) (hx : s.Assigns g x) (hy : s.Assigns g y) :
    Decides (s.equates x y) (s.valuation.Agrees x y) := by
  obtain ⟨sort, x⟩ := x
  obtain ⟨_, y⟩ := y
  cases hsort
  cases sort with
  | element =>
    refine ⟨s.valuation.element x == s.valuation.element y, ?_, beq_iff_eq⟩
    show (do return (← s.elementValue x) == (← s.elementValue y)) = _
    rw [Assignment.elementValue_eq hx, Assignment.elementValue_eq hy]
    rfl
  | set =>
    obtain ⟨u, hu, hux⟩ := Assignment.exists_setValue hx
    obtain ⟨v, hv, hvy⟩ := Assignment.exists_setValue hy
    refine ⟨u == v, ?_, ?_⟩
    · show (do return (← s.setValue x) == (← s.setValue y)) = _
      rw [hu, hv]
      rfl
    · show _ ↔ s.valuation.set x = s.valuation.set y
      rw [← hux, ← hvy, VertexSet.toSet_inj, beq_iff_eq]

theorem adjacent_iff_joined (hg : g.WellFormed) {i j : VertexId} :
    g.adjacent i j = true ↔ g.Joined i j := by
  constructor
  · intro h
    obtain ⟨a, ha⟩ := Graph.lt_vertexCount_iff.mp (Graph.adjacent_lt h).1
    obtain ⟨b, hb⟩ := Graph.lt_vertexCount_iff.mp (Graph.adjacent_lt h).2
    rw [hg.adjacent_eq_hasEdge ha hb, hg.hasEdge_iff] at h
    exact ⟨a, b, ha, hb, h⟩
  · rintro ⟨a, b, ha, hb, hedge⟩
    rwa [hg.adjacent_eq_hasEdge ha hb, hg.hasEdge_iff]

theorem relates_decides (hg : g.WellFormed) {r : Relation} {xs : List (Placed σ Variable)}
    (hlen : xs.length = r.arity) (hsort : ∀ x ∈ xs, x.value.sort = .element)
    (hr : ∀ x, r.variable? = some x → s.Assigns g x) (hxs : ∀ x ∈ xs, s.Assigns g x.value) :
    Decides (do s.relates g r (← s.argumentValues r xs)) (s.valuation.Relates g r xs) := by
  have hargs : s.argumentValues r xs = .ok (xs.map fun x => s.valuation.element x.value.name) := by
    clear hlen
    induction xs with
    | nil => rfl
    | cons x xs ih =>
      obtain ⟨p, ⟨sort, name⟩⟩ := x
      obtain rfl : sort = .element := hsort _ List.mem_cons_self
      rw [Assignment.argumentValues, Assignment.elementValue_eq (hxs _ List.mem_cons_self),
        ih (fun x hx => hsort x (List.mem_cons_of_mem _ hx))
          (fun x hx => hxs x (List.mem_cons_of_mem _ hx))]
      rfl
  rw [hargs]
  cases r with
  | edge =>
    obtain ⟨⟨p, ⟨sort, x⟩⟩, ⟨q, ⟨sort', y⟩⟩, rfl⟩ := List.length_eq_two.mp hlen
    obtain rfl : sort = .element := hsort _ List.mem_cons_self
    obtain rfl : sort' = .element := hsort _ (List.mem_cons_of_mem _ List.mem_cons_self)
    exact ⟨_, rfl, adjacent_iff_joined hg⟩
  | set name =>
    obtain ⟨⟨p, ⟨sort, x⟩⟩, rfl⟩ := List.length_eq_one_iff.mp hlen
    obtain rfl : sort = .element := hsort _ List.mem_cons_self
    obtain ⟨u, hu, hmem⟩ := Assignment.exists_setValue (hr ⟨.set, name⟩ rfl)
    refine ⟨u.contains (s.valuation.element x), ?_, ?_⟩
    · show (do return (← s.setValue name).contains _) = _
      rw [hu]
      rfl
    · show _ ↔ s.valuation.element x ∈ s.valuation.set name
      rw [← hmem, VertexSet.mem_toSet]

end

/-! ## Formulas -/

section

variable {g : Graph}

/-- Trying the subsets in order decides what quantifies over all sets of vertices. -/
theorem exists_subset_iff (hsize : g.vertexCount ≤ VertexSet.idLimit) (P : Set VertexId → Prop) :
    (∃ x ∈ (Subsets.ofSize g.vertexCount).toList, P x.toSet) ↔
      ∃ S : Set VertexId, (∀ i ∈ S, i < g.vertexCount) ∧ P S := by
  constructor
  · rintro ⟨x, hx, hP⟩
    exact ⟨x.toSet, fun i hi => Subsets.lt_of_mem_toList_ofSize hx hi, hP⟩
  · rintro ⟨S, hS, hP⟩
    obtain ⟨x, hx, rfl⟩ := Subsets.exists_mem_toList_ofSize hsize hS
    exact ⟨x, hx, hP⟩

theorem forall_subset_iff (hsize : g.vertexCount ≤ VertexSet.idLimit) (P : Set VertexId → Prop) :
    (∀ x ∈ (Subsets.ofSize g.vertexCount).toList, P x.toSet) ↔
      ∀ S : Set VertexId, (∀ i ∈ S, i < g.vertexCount) → P S := by
  constructor
  · intro h S hS
    obtain ⟨x, hx, rfl⟩ := Subsets.exists_mem_toList_ofSize hsize hS
    exact h x hx
  · intro h x hx
    exact h x.toSet fun i hi => Subsets.lt_of_mem_toList_ofSize hx hi

end

/-- What evaluation finds out is whether the formula is satisfied. -/
theorem verdict_decides {σ : Type} {g : Graph} (hg : g.WellFormed)
    (hsize : g.vertexCount ≤ VertexSet.idLimit) (φ : Formula σ) (s : Assignment)
    (hφ : φ.WellSorted) (hs : ∀ x, φ.Free x → s.Assigns g x) :
    Decides (φ.verdict g s) (φ.Satisfied g s.valuation) := by
  induction φ generalizing s with
  | quantified p q x φ ih =>
    obtain ⟨pq, q⟩ := q
    obtain ⟨px, ⟨sort, name⟩⟩ := x
    cases sort with
    | element =>
      have hbody : ∀ i ∈ List.range g.vertexCount,
          Decides (φ.verdict g (s.bindElement name i).2)
            (φ.Satisfied g (s.valuation.withElement name i)) := by
        intro i hi
        rw [← Assignment.valuation_bindElement]
        refine ih _ hφ ?_
        intro y hy
        exact Assignment.assigns_bindElement (List.mem_range.mp hi) fun hne => hs y ⟨hne, hy⟩
      cases q with
      | existential =>
        refine (Decides.decideAmong_true hbody).congr ?_
        simp only [List.mem_range]
        rfl
      | universal =>
        refine (Decides.decideAmong_false hbody).congr ?_
        simp only [List.mem_range]
        rfl
    | set =>
      have hbody : ∀ u ∈ (Subsets.ofSize g.vertexCount).toList,
          Decides (φ.verdict g (s.bindSet name u).2)
            (φ.Satisfied g (s.valuation.withSet name u.toSet)) := by
        intro u _
        rw [← Assignment.valuation_bindSet]
        refine ih _ hφ ?_
        intro y hy
        exact Assignment.assigns_bindSet fun hne => hs y ⟨hne, hy⟩
      cases q with
      | existential =>
        exact (Decides.decideAmong_true hbody).congr
          (exists_subset_iff hsize fun S => φ.Satisfied g (s.valuation.withSet name S))
      | universal =>
        exact (Decides.decideAmong_false hbody).congr
          (forall_subset_iff hsize fun S => φ.Satisfied g (s.valuation.withSet name S))
  | binary p c φ ψ ihφ ihψ =>
    obtain ⟨pc, c⟩ := c
    have hleft := ihφ s hφ.1 fun x hx => hs x (Or.inl hx)
    have hright := ihψ s hφ.2 fun x hx => hs x (Or.inr hx)
    cases c with
    | and => exact hleft.and hright
    | or => exact hleft.or hright
    | implies => exact hleft.imp hright
    | iff => exact hleft.iff hright
  | negation p sign φ ih => exact (ih s hφ hs).not
  | comparison p o x y =>
    obtain ⟨po, o⟩ := o
    have hxy := equates_decides hφ (hs x.value (Or.inl rfl)) (hs y.value (Or.inr rfl))
    cases o with
    | equal =>
      show Decides (s.equates x.value y.value >>= pure) _
      rwa [bind_pure]
    | unequal => exact hxy.not
  | relation p r xs =>
    exact relates_decides hg hφ.1 hφ.2 (fun x hx => hs x (Or.inl hx))
      fun x hx => hs x.value (Or.inr ⟨x, hx, rfl⟩)

/-- **Evaluation decides truth.** In a graph that can be made, and whose ids can all be stored,
evaluating a formula of the logic under values for its free variables does not fault, leaves the
assignment as it was, and answers whether the formula is satisfied. -/
theorem holds_iff_satisfied {σ : Type} {g : Graph} (hg : g.Reachable)
    (hsize : g.vertexCount ≤ VertexSet.idLimit) (φ : Formula σ) (s : Assignment)
    (hφ : φ.WellSorted) (hs : ∀ x, φ.Free x → s.Assigns g x) :
    ∃ b, (φ.holds g).runOn s = (.ok b, s) ∧ (b = true ↔ φ.Satisfied g s.valuation) := by
  obtain ⟨b, hb, htruth⟩ := verdict_decides hg.wellFormed hsize φ s hφ hs
  refine ⟨b, ?_, htruth⟩
  rw [← hb]
  exact holds_yields g φ s

/-- `∃X (X(x) ∧ ∃x E(x, y))` is true on the edge `a`–`b`, where `x` is `b` and `y` is `a`. The inner
`x` hides the outer one. -/
theorem holds_iff_satisfied_pair :
    let a : Vertex := ⟨"a"⟩
    let b : Vertex := ⟨"b"⟩
    let changes : List Graph.Change := [.addVertex a, .addVertex b, .addEdge a b]
    let g := changes.foldl Graph.change {}
    let x : Placed Unit Variable := ⟨(), ⟨.element, "x"⟩⟩
    let y : Placed Unit Variable := ⟨(), ⟨.element, "y"⟩⟩
    let X : Placed Unit Variable := ⟨(), ⟨.set, "X"⟩⟩
    let φ : Formula Unit := .quantified () ⟨(), .existential⟩ X
      (.binary () ⟨(), .and⟩ (.relation () ⟨(), .set "X"⟩ [x])
        (.quantified () ⟨(), .existential⟩ x (.relation () ⟨(), .edge⟩ [x, y])))
    let s : Assignment := { elements := ⟨[("x", 1), ("y", 0)]⟩ }
    φ.Satisfied g s.valuation ∧ (φ.holds g).runOn s = (.ok true, s) := by
  intro a b changes g x y X φ s
  have hg : g.Reachable := Graph.Reachable.empty.changes changes
  have hcount : g.vertexCount = 2 := by decide
  have hsize : g.vertexCount ≤ VertexSet.idLimit := by
    rw [hcount]
    decide
  have hφ : φ.WellSorted := by decide
  have hs : ∀ z, φ.Free z → s.Assigns g z := by
    intro z hz
    have hx : s.Assigns g x.value := ⟨1, by decide, rfl⟩
    have hy : s.Assigns g y.value := ⟨0, by decide, rfl⟩
    simp only [φ, Formula.Free, Relation.variable?] at hz
    obtain ⟨hX, (hset | ⟨u, hu, rfl⟩) | ⟨-, hedge | ⟨u, hu, rfl⟩⟩⟩ := hz
    · exact absurd (Option.some_inj.mp hset).symm hX
    · rwa [List.mem_singleton.mp hu]
    · cases hedge
    · rcases List.mem_pair.mp hu with rfl | rfl
      · exact hx
      · exact hy
  have htruth : φ.Satisfied g s.valuation := by
    refine ⟨{1}, ?_, ?_, 1, ?_, b, a, rfl, rfl, ⟨a, b, by decide⟩, ?_, rfl⟩
    · intro i hi
      rw [Set.mem_singleton_iff.mp hi]
      decide
    · exact Set.mem_singleton 1
    · decide
    · exact List.mem_singleton_self _
  obtain ⟨answer, hrun, hanswer⟩ := holds_iff_satisfied hg hsize φ s hφ hs
  rw [hanswer.mpr htruth] at hrun
  exact ⟨htruth, hrun⟩

end GraphLogic
