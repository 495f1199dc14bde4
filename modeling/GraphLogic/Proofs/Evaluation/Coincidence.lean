import GraphLogic.Proofs.Evaluation.Verdict
import GraphLogic.Proofs.Formula.Semantics

/-!
# Evaluation looks at the free variables only

**Theorem (`verdict_congr`).** Assignments that give the free variables of a formula the same
values, or none of them, lead to the same verdict, be it an answer or a fault.

In particular the value of a variable that is not free in a formula does not matter to it
(`verdict_of_binds`). Nothing is asked of the formula or of the values here, so that this says more
than that satisfaction depends on the free variables only: faults are the same, too.

**Theorem (`holds_coincides`).** So it is for evaluation itself, which binds and releases variables
in the two assignments as it goes.
-/

namespace GraphLogic

namespace Assignment

variable {σ : Type} {s t : Assignment} {x y : Variable} {name : String}

/-- The assignments give the variable the same value, or both none. -/
def SameAt (s t : Assignment) : Variable → Prop
  | ⟨.element, name⟩ => s.elements.get? name = t.elements.get? name
  | ⟨.set, name⟩ => s.sets.get? name = t.sets.get? name

/-- The other assignment is this one, but for the value of the variable, which may be any of its
sort. -/
def Binds (s : Assignment) : Variable → Assignment → Prop
  | ⟨.element, name⟩, t => ∃ i, t = (s.bindElement name i).2
  | ⟨.set, name⟩, t => ∃ x, t = (s.bindSet name x).2

/-! ## Bindings -/

theorem get?_put_congr {α : Type} {t u : Values α} {other : String} (a : α)
    (h : other ≠ name → t.get? other = u.get? other) :
    (t.put name a).get? other = (u.put name a).get? other := by
  rw [Values.get?_put, Values.get?_put]
  by_cases heq : name = other
  · rw [if_pos heq, if_pos heq]
  · rw [if_neg heq, if_neg heq]
    exact h (Ne.symm heq)

theorem SameAt.bindElement (i : VertexId) (h : y ≠ ⟨.element, name⟩ → s.SameAt t y) :
    (s.bindElement name i).2.SameAt (t.bindElement name i).2 y := by
  obtain ⟨sort, other⟩ := y
  cases sort with
  | element => exact get?_put_congr i fun hne => h fun hy => hne (Variable.mk.inj hy).2
  | set => exact h fun hy => VarSort.noConfusion (Variable.mk.inj hy).1

theorem SameAt.bindSet (u : VertexSet) (h : y ≠ ⟨.set, name⟩ → s.SameAt t y) :
    (s.bindSet name u).2.SameAt (t.bindSet name u).2 y := by
  obtain ⟨sort, other⟩ := y
  cases sort with
  | element => exact h fun hy => VarSort.noConfusion (Variable.mk.inj hy).1
  | set => exact get?_put_congr u fun hne => h fun hy => hne (Variable.mk.inj hy).2

/-- A binding changes the value of no other variable. -/
theorem sameAt_of_binds (h : s.Binds x t) (hy : y ≠ x) : t.SameAt s y := by
  obtain ⟨sort, name⟩ := x
  obtain ⟨sort', other⟩ := y
  cases sort <;> cases sort' <;> obtain ⟨value, rfl⟩ := h
  -- A binding of the one sort does not touch the values of the other.
  case element.set | set.element => rfl
  all_goals
    refine (Values.get?_put ..).trans (if_neg ?_)
    intro heq
    exact hy (by rw [heq])

/-! ## Atoms -/

theorem elementValue_congr (h : s.SameAt t ⟨.element, name⟩) :
    s.elementValue name = t.elementValue name := by
  unfold elementValue
  rw [show s.elements.get? name = t.elements.get? name from h]

theorem setValue_congr (h : s.SameAt t ⟨.set, name⟩) : s.setValue name = t.setValue name := by
  unfold setValue
  rw [show s.sets.get? name = t.sets.get? name from h]

theorem equates_congr (hx : s.SameAt t x) (hy : s.SameAt t y) : s.equates x y = t.equates x y := by
  obtain ⟨sx, x⟩ := x
  obtain ⟨sy, y⟩ := y
  cases sx <;> cases sy
  · simp only [equates, elementValue_congr hx, elementValue_congr hy]
  · rfl
  · rfl
  · simp only [equates, setValue_congr hx, setValue_congr hy]

theorem argumentValues_congr (r : Relation) {xs : List (Placed σ Variable)}
    (h : ∀ x ∈ xs, s.SameAt t x.value) : s.argumentValues r xs = t.argumentValues r xs := by
  induction xs with
  | nil => rfl
  | cons x xs ih =>
    have hx := h x List.mem_cons_self
    have hxs := ih fun y hy => h y (List.mem_cons_of_mem _ hy)
    obtain ⟨p, ⟨sort, name⟩⟩ := x
    cases sort with
    | element => simp only [argumentValues, elementValue_congr hx, hxs]
    | set => rfl

theorem relates_congr (g : Graph) {r : Relation} (ids : List VertexId)
    (h : ∀ x, r.variable? = some x → s.SameAt t x) : s.relates g r ids = t.relates g r ids := by
  cases r with
  | edge => rcases ids with _ | ⟨i, _ | ⟨j, _ | ⟨k, ids⟩⟩⟩ <;> rfl
  | set name =>
    have hset : s.setValue name = t.setValue name := setValue_congr (h _ rfl)
    rcases ids with _ | ⟨i, _ | ⟨j, ids⟩⟩
    · rfl
    · simp only [relates, hset]
    · rfl

end Assignment

/-! ## Formulas -/

variable {σ : Type} {g : Graph} {φ : Formula σ} {s t : Assignment}

/-- **Evaluation looks at the free variables only.** -/
theorem verdict_congr (h : ∀ x, φ.Free x → s.SameAt t x) : φ.verdict g s = φ.verdict g t := by
  induction φ generalizing s t with
  | quantified p q x φ ih =>
    obtain ⟨px, ⟨sort, name⟩⟩ := x
    cases sort with
    | element =>
      have hbody (i : VertexId) :
          φ.verdict g (s.bindElement name i).2 = φ.verdict g (t.bindElement name i).2 := by
        apply ih
        intro y hy
        exact Assignment.SameAt.bindElement i fun hne => h y ⟨hne, hy⟩
      simp only [Formula.verdict, hbody]
    | set =>
      have hbody (u : VertexSet) :
          φ.verdict g (s.bindSet name u).2 = φ.verdict g (t.bindSet name u).2 := by
        apply ih
        intro y hy
        exact Assignment.SameAt.bindSet u fun hne => h y ⟨hne, hy⟩
      simp only [Formula.verdict, hbody]
  | binary p c φ ψ ihφ ihψ =>
    simp only [Formula.verdict, ihφ fun x hx => h x (Or.inl hx), ihψ fun x hx => h x (Or.inr hx)]
  | negation p sign φ ih => simp only [Formula.verdict, ih h]
  | comparison p o x y =>
    simp only [Formula.verdict,
      Assignment.equates_congr (h x.value (Or.inl rfl)) (h y.value (Or.inr rfl))]
  | relation p r xs =>
    have hargs := Assignment.argumentValues_congr r.value fun x hx =>
      h x.value (Or.inr ⟨x, hx, rfl⟩)
    have hrel (ids : List VertexId) := Assignment.relates_congr g ids fun x hx => h x (Or.inl hx)
    simp only [Formula.verdict, hargs, hrel]

/-- What a variable is bound to does not matter to a formula in which it is not free. -/
theorem verdict_of_binds {x : Variable} (hx : ¬ φ.Free x) (h : s.Binds x t) :
    φ.verdict g t = φ.verdict g s := by
  apply verdict_congr
  intro y hy
  apply Assignment.sameAt_of_binds h
  rintro rfl
  exact hx hy

/-- **The result of an evaluation is a function of the values of the free variables**: an answer or
a fault, it is the same from any two assignments that agree on them, and it stays the same when any
other variable is bound to something else, be it of another name, of the other sort, or one that the
formula binds itself. -/
theorem holds_coincides (g : Graph) (φ : Formula σ) (s t : Assignment) :
    ((∀ x, φ.Free x → s.SameAt t x) →
        ((φ.holds g).runOn s).1 = ((φ.holds g).runOn t).1) ∧
      ∀ x, ¬ φ.Free x → s.Binds x t →
        ((φ.holds g).runOn t).1 = ((φ.holds g).runOn s).1 := by
  have hs : (φ.holds g).runOn s = (φ.verdict g s, s) := holds_yields g φ s
  have ht : (φ.holds g).runOn t = (φ.verdict g t, t) := holds_yields g φ t
  rw [hs, ht]
  constructor
  · intro h
    exact verdict_congr h
  · intro x hx hbinds
    exact verdict_of_binds hx hbinds

/-- `∃x (X(x) ∨ x = y)`, where the set `X` has a value and the element `y` has none. The assignments
disagree on `x`, which is bound here, on the element `X` and on the set `y`. -/
theorem holds_coincides_unassigned :
    let x : Placed Unit Variable := ⟨(), ⟨.element, "x"⟩⟩
    let φ : Formula Unit := .quantified () ⟨(), .existential⟩ x
      (.binary () ⟨(), .or⟩ (.relation () ⟨(), .set "X"⟩ [x])
        (.comparison () ⟨(), .equal⟩ x ⟨(), ⟨.element, "y"⟩⟩))
    let g : Graph := { rows := [(⟨"a"⟩, [])] }
    let s : Assignment := { elements := ⟨[("x", 7)]⟩, sets := ⟨[("X", .empty)]⟩ }
    let t : Assignment :=
      { elements := ⟨[("X", 0), ("x", 2)]⟩, sets := ⟨[("y", .empty), ("X", .empty)]⟩ }
    ((φ.holds g).runOn s).1 = ((φ.holds g).runOn t).1 ∧
      ((φ.holds g).runOn (s.bindElement "x" 5).2).1 = ((φ.holds g).runOn s).1 ∧
      ((φ.holds g).runOn t).1 = .error (.unassigned ⟨.element, "y"⟩) := by
  intro x φ g s t
  refine ⟨(holds_coincides g φ s t).1 ?_, (holds_coincides g φ s _).2 x.value ?_ ⟨5, rfl⟩, rfl⟩
  · intro z hz
    rcases hz with ⟨hne, (hX | ⟨w, hw, rfl⟩) | rfl | rfl⟩
    · cases hX
      rfl
    · rw [List.mem_singleton.mp hw] at hne
      exact absurd rfl hne
    · exact absurd rfl hne
    · rfl
  · intro hfree
    exact hfree.1 rfl

end GraphLogic
