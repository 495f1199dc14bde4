import GraphLogic.Evaluation
import GraphLogic.Proofs.Except
import GraphLogic.Proofs.VertexSet.Enumeration

/-!
# Evaluation as a function of the assignment

Evaluation keeps the values of the variables in an assignment, which it changes under a quantifier
and restores afterwards. Seen from outside nothing of this shows.

**Theorem (`holds_yields`).** Evaluating a formula gives its `verdict`, a function of the
assignment defined by recursion on the formula, and leaves the assignment as it was, also when it
faults.

**Theorem (`holds_restores`).** In particular, every name means afterwards what it meant before.
-/

namespace GraphLogic

/-! ## Verdicts -/

namespace Assignment

variable {σ : Type}

/-- The value of an element variable. -/
def elementValue (s : Assignment) (name : String) : Except EvaluationFault VertexId :=
  match s.elements.get? name with
  | some i => .ok i
  | none => .error (.unassigned ⟨.element, name⟩)

/-- The value of a set variable. -/
def setValue (s : Assignment) (name : String) : Except EvaluationFault VertexSet :=
  match s.sets.get? name with
  | some x => .ok x
  | none => .error (.unassigned ⟨.set, name⟩)

/-- Whether two variables have the same value. -/
def equates (s : Assignment) : Variable → Variable → Except EvaluationFault Bool
  | ⟨.element, x⟩, ⟨.element, y⟩ => do return (← s.elementValue x) == (← s.elementValue y)
  | ⟨.set, x⟩, ⟨.set, y⟩ => do return (← s.setValue x) == (← s.setValue y)
  | x, y => .error (.sortMismatch x.sort y.sort)

/-- The values of the arguments of a relation. -/
def argumentValues (s : Assignment) (r : Relation) :
    List (Placed σ Variable) → Except EvaluationFault (List VertexId)
  | [] => .ok []
  | ⟨_, ⟨.element, name⟩⟩ :: rest => do
    return (← s.elementValue name) :: (← s.argumentValues r rest)
  | ⟨_, ⟨.set, name⟩⟩ :: _ => .error (.notAnElement r name)

/-- Whether a relation holds of some vertices. -/
def relates (s : Assignment) (g : Graph) (r : Relation) (ids : List VertexId) :
    Except EvaluationFault Bool :=
  match r, ids with
  | .edge, [i, j] => .ok (g.adjacent i j)
  | .set name, [i] => do return (← s.setValue name).contains i
  | r, ids => .error (.arityMismatch r ids.length)

end Assignment

/-- Tries values in order, up to the first for which `trial` gives `decisive`. -/
def decideAmong {α : Type} (decisive : Bool) (trial : α → Except EvaluationFault Bool) :
    List α → Except EvaluationFault Bool
  | [] => .ok !decisive
  | a :: rest => do
    if (← trial a) == decisive then return decisive else decideAmong decisive trial rest

/-- What evaluation finds out about the formula, with the values of its free variables taken from
the assignment. -/
def Formula.verdict {σ : Type} (g : Graph) : Formula σ → Assignment → Except EvaluationFault Bool
  | quantified _ q ⟨_, ⟨.element, name⟩⟩ φ, s =>
    decideAmong (q.value == .existential) (fun i => φ.verdict g (s.bindElement name i).2)
      (List.range g.vertexCount)
  | quantified _ q ⟨_, ⟨.set, name⟩⟩ φ, s =>
    decideAmong (q.value == .existential) (fun x => φ.verdict g (s.bindSet name x).2)
      (Subsets.ofSize g.vertexCount).toList
  | binary _ c φ ψ, s => do
    let left ← φ.verdict g s
    match c.value with
    | .and => if left then ψ.verdict g s else return false
    | .or => if left then return true else ψ.verdict g s
    | .implies => if left then ψ.verdict g s else return true
    | .iff => return left == (← ψ.verdict g s)
  | negation _ _ φ, s => do return !(← φ.verdict g s)
  | comparison _ o x y, s => do
    let equal ← s.equates x.value y.value
    match o.value with
    | .equal => return equal
    | .unequal => return !equal
  | relation _ r xs, s => do s.relates g r.value (← s.argumentValues r.value xs)

/-! ## Computations that leave the assignment alone -/

namespace Evaluation

variable {α β σ : Type} {m : Evaluation α} {f : α → Evaluation β} {s : Assignment}

/-- Run on `s`, the computation gives `r` and leaves `s` as it was. -/
def Yields (m : Evaluation α) (s : Assignment) (r : Except EvaluationFault α) : Prop :=
  m.runOn s = (r, s)

theorem yields_pure (a : α) : Yields (pure a) s (.ok a) := rfl

theorem yields_throw (e : EvaluationFault) : Yields (throw e : Evaluation α) s (.error e) := rfl

theorem Yields.bind {r : Except EvaluationFault α} {k : α → Except EvaluationFault β}
    (hm : Yields m s r) (hf : ∀ a, Yields (f a) s (k a)) : Yields (m >>= f) s (r >>= k) := by
  unfold Yields runOn at hm ⊢
  rw [run_bind, hm]
  cases r with
  | error e => rfl
  | ok a => exact hf a

/-! ## Atoms -/

theorem element_yields (name : String) (s : Assignment) :
    Yields (element name) s (s.elementValue name) := by
  unfold Assignment.elementValue
  show Yields (match s.elements.get? name with | some i => pure i | none => throw _) s _
  cases s.elements.get? name <;> rfl

theorem set_yields (name : String) (s : Assignment) :
    Yields (set name) s (s.setValue name) := by
  unfold Assignment.setValue
  show Yields (match s.sets.get? name with | some x => pure x | none => throw _) s _
  cases s.sets.get? name <;> rfl

theorem equal_yields (x y : Variable) (s : Assignment) :
    Yields (equal x y) s (s.equates x y) := by
  obtain ⟨sx, x⟩ := x
  obtain ⟨sy, y⟩ := y
  cases sx <;> cases sy
  · exact (element_yields x s).bind fun _ => (element_yields y s).bind fun _ => yields_pure _
  · exact yields_throw _
  · exact yields_throw _
  · exact (set_yields x s).bind fun _ => (set_yields y s).bind fun _ => yields_pure _

theorem arguments_yields (r : Relation) (xs : List (Placed σ Variable)) (s : Assignment) :
    Yields (arguments r xs) s (s.argumentValues r xs) := by
  induction xs with
  | nil => exact yields_pure _
  | cons x xs ih =>
    obtain ⟨p, ⟨sort, name⟩⟩ := x
    cases sort with
    | element => exact (element_yields name s).bind fun _ => ih.bind fun _ => yields_pure _
    | set => exact yields_throw _

theorem related_yields (g : Graph) (r : Relation) (ids : List VertexId) (s : Assignment) :
    Yields (related g r ids) s (s.relates g r ids) := by
  cases r with
  | edge =>
    rcases ids with _ | ⟨i, _ | ⟨j, _ | ⟨k, ids⟩⟩⟩
    · exact yields_throw _
    · exact yields_throw _
    · exact yields_pure _
    · exact yields_throw _
  | set name =>
    rcases ids with _ | ⟨i, _ | ⟨j, ids⟩⟩
    · exact yields_throw _
    · exact (set_yields name s).bind fun _ => yields_pure _
    · exact yields_throw _

/-! ## Quantifiers -/

theorem under_element_yields {r : Except EvaluationFault α} {name : String} {i : VertexId}
    (hm : Yields m (s.bindElement name i).2 r) : Yields (under (·.bindElement name i) m) s r := by
  show ((m.runOn (s.bindElement name i).2).1,
    (m.runOn (s.bindElement name i).2).2.release (s.bindElement name i).1) = _
  rw [hm, Assignment.release_bindElement]

theorem under_set_yields {r : Except EvaluationFault α} {name : String} {x : VertexSet}
    (hm : Yields m (s.bindSet name x).2 r) : Yields (under (·.bindSet name x) m) s r := by
  show ((m.runOn (s.bindSet name x).2).1,
    (m.runOn (s.bindSet name x).2).2.release (s.bindSet name x).1) = _
  rw [hm, Assignment.release_bindSet]

theorem searchList_yields {decisive : Bool} {trial : α → Evaluation Bool}
    {k : α → Except EvaluationFault Bool} (htrial : ∀ a, Yields (trial a) s (k a))
    (as : List α) : Yields (searchList decisive trial as) s (decideAmong decisive k as) := by
  induction as with
  | nil => exact yields_pure _
  | cons a as ih =>
    refine (htrial a).bind ?_
    intro b
    split
    · exact yields_pure _
    · exact ih

theorem searchSubsets_eq (decisive : Bool) (trial : VertexSet → Evaluation Bool)
    (sets : Subsets) :
    searchSubsets decisive trial sets = searchList decisive trial sets.toList := by
  fun_induction searchSubsets decisive trial sets with
  | case1 sets h =>
    rw [Subsets.toList_of_none h]
    rfl
  | case2 sets x rest h ih =>
    rw [Subsets.toList_of_some h, searchList, ih]

end Evaluation

/-- **Evaluation is a function of the assignment.** Evaluating a formula gives its verdict, and
the assignment is afterwards what it was before. -/
theorem holds_yields {σ : Type} (g : Graph) (φ : Formula σ) (s : Assignment) :
    Evaluation.Yields (φ.holds g) s (φ.verdict g s) := by
  induction φ generalizing s with
  | quantified p q x φ ih =>
    obtain ⟨px, ⟨sort, name⟩⟩ := x
    cases sort with
    | element =>
      exact Evaluation.searchList_yields (fun i => Evaluation.under_element_yields (ih _)) _
    | set =>
      show Evaluation.Yields (Evaluation.searchSubsets _ _ _) s _
      rw [Evaluation.searchSubsets_eq]
      exact Evaluation.searchList_yields (fun x => Evaluation.under_set_yields (ih _)) _
  | binary p c φ ψ ihφ ihψ =>
    refine (ihφ s).bind ?_
    intro left
    cases c.value with
    | and =>
      cases left
      · exact Evaluation.yields_pure _
      · exact ihψ s
    | or =>
      cases left
      · exact ihψ s
      · exact Evaluation.yields_pure _
    | implies =>
      cases left
      · exact Evaluation.yields_pure _
      · exact ihψ s
    | iff => exact (ihψ s).bind fun _ => Evaluation.yields_pure _
  | negation p sign φ ih => exact (ih s).bind fun _ => Evaluation.yields_pure _
  | comparison p o x y =>
    refine (Evaluation.equal_yields x.value y.value s).bind ?_
    intro b
    cases o.value <;> exact Evaluation.yields_pure _
  | relation p r xs =>
    exact (Evaluation.arguments_yields r.value xs s).bind fun ids =>
      Evaluation.related_yields g r.value ids s

theorem runOn_of_verdict {σ : Type} {g : Graph} {φ : Formula σ} {s : Assignment}
    {r : Except EvaluationFault Bool} (h : φ.verdict g s = r) : (φ.holds g).runOn s = (r, s) := by
  rw [← h]
  exact holds_yields g φ s

/-- **Evaluation restores the assignment.** For every graph, every formula, also one without a
meaning, and every assignment, whether evaluation answers or faults. -/
theorem holds_restores {σ : Type} (g : Graph) (φ : Formula σ) (s : Assignment) :
    ((φ.holds g).runOn s).2 = s := by
  have hyields : (φ.holds g).runOn s = (φ.verdict g s, s) := holds_yields g φ s
  rw [hyields]

/-- A fault under two binders of one name, which the assignment gives a value, too. -/
example :
    let x : Placed Unit Variable := ⟨(), ⟨.element, "x"⟩⟩
    let φ : Formula Unit := .quantified () ⟨(), .existential⟩ x (.quantified () ⟨(), .existential⟩ x
      (.comparison () ⟨(), .equal⟩ x ⟨(), ⟨.element, "y"⟩⟩))
    let s : Assignment := { elements := ⟨[("x", 7)]⟩ }
    (φ.holds { rows := [(⟨"a"⟩, [])] }).runOn s = (.error (.unassigned ⟨.element, "y"⟩), s) := by
  rfl

end GraphLogic
