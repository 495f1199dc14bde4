import GraphLogic.Proofs.Formula.Semantics
import GraphLogic.Proofs.Formula.Spelling

/-!
# Valid formulas

The analysis votes on validity beside the list of errors. Both say the same
(`valid_iff_errors`).

**Theorem (`wellSorted_of_valid`).** A valid formula whose free variables are in scope, with their
sorts, is a formula of the logic.

The analysis knows names only: what is in scope by its name may yet be free by its sort. No name is
bound inside its own scope, so that it is enough to look at the scope around the formula; and where
the spelling of names fixes the sorts, nothing can be free in this way (`closed_of_valid`).
-/

namespace GraphLogic

/-! ## Scopes -/

namespace Scope

variable {s : Scope} {x y : Variable} {name : String}

theorem lookup_push (s : Scope) (y : Variable) (name : String) :
    (s.push y).lookup name = if y.name = name then some y.sort else s.lookup name := by
  unfold lookup push
  rw [List.find?_cons]
  by_cases h : y.name = name
  · simp [h]
  · rw [if_neg h, beq_eq_false_iff_ne.mpr h]

theorem contains_push :
    (s.push x).contains name = true ↔ x.name = name ∨ s.contains name = true := by
  unfold contains
  rw [lookup_push]
  by_cases h : x.name = name <;> simp [h]

/-- A binder with a new name puts its variable in scope and takes no other out. -/
theorem lookup_push_of_new (hnew : s.contains y.name = false)
    (hx : x ≠ y → s.lookup x.name = some x.sort) : (s.push y).lookup x.name = some x.sort := by
  rw [lookup_push]
  by_cases heq : x = y
  · rw [heq, if_pos rfl]
  · have hin := hx heq
    have hne : y.name ≠ x.name := by
      intro hname
      rw [contains, hname, hin] at hnew
      cases hnew
    rw [if_neg hne, hin]

end Scope

variable {s : Scope} {φ : Formula Span} {x : Variable}

/-! ## Validity and errors -/

theorem Scope.undeclared_eq_nil {y : Placed Span Variable} :
    s.undeclared y = [] ↔ s.contains y.value.name = true := by
  unfold Scope.undeclared
  split
  · rename_i h
    exact iff_of_true rfl h
  · rename_i h
    exact iff_of_false (List.cons_ne_nil _ _) h

theorem Scope.comparison_valid (s : Scope) (p : Span) (o : Comparison)
    (x y : Placed Span Variable) :
    (s.comparison p o x y).valid = true ↔ (s.comparison p o x y).errors = [] := by
  unfold Scope.comparison
  split
  · exact Scope.undeclared_eq_nil.symm
  · dsimp only
    rw [List.append_eq_nil_iff, List.append_eq_nil_iff, Scope.undeclared_eq_nil,
      Scope.undeclared_eq_nil, Bool.and_eq_true, Bool.and_eq_true, beq_iff_eq]
    refine and_congr_right ?_
    intro _
    split
    · rename_i h
      exact iff_of_true h rfl
    · rename_i h
      exact iff_of_false h (List.cons_ne_nil _ _)

theorem Scope.argument_eq_nil {r : Relation} {y : Placed Span Variable} :
    s.argument r y = [] ↔ s.admitsArgument y = true := by
  unfold Scope.argument Scope.admitsArgument
  rw [List.append_eq_nil_iff, Scope.undeclared_eq_nil, Bool.and_eq_true, beq_iff_eq]
  refine and_congr_left ?_
  intro _
  cases y.value.sort <;> simp

theorem Scope.relation_valid (s : Scope) (p : Span) (r : Placed Span Relation)
    (xs : List (Placed Span Variable)) :
    (s.relation p r xs).valid = true ↔ (s.relation p r xs).errors = [] := by
  unfold Scope.relation
  dsimp only
  rw [List.append_eq_nil_iff, List.append_eq_nil_iff, Bool.and_eq_true, Bool.and_eq_true,
    beq_iff_eq, List.flatMap_eq_nil_iff, List.all_eq_true]
  refine and_congr (and_congr ?_ ?_) (forall₂_congr fun y _ => Scope.argument_eq_nil.symm)
  · obtain ⟨pr, r⟩ := r
    cases r with
    | edge => exact iff_of_true rfl rfl
    | set name => exact (Scope.undeclared_eq_nil (y := ⟨pr, ⟨.set, name⟩⟩)).symm
  · split
    · rename_i h
      exact iff_of_true h rfl
    · rename_i h
      exact iff_of_false h (List.cons_ne_nil _ _)

theorem valid_iff_errors (φ : Formula Span) (s : Scope) :
    (φ.analyzeIn s).valid = true ↔ (φ.analyzeIn s).errors = [] := by
  induction φ generalizing s with
  | quantified p q x φ ih =>
    unfold Formula.analyzeIn
    dsimp only
    rw [Bool.and_eq_true, List.append_eq_nil_iff, ih]
    refine and_congr_left ?_
    intro _
    cases s.contains x.value.name <;> simp
  | binary p c φ ψ ihφ ihψ =>
    show ((φ.analyzeIn s).valid && (ψ.analyzeIn s).valid) = true ↔
      (φ.analyzeIn s).errors ++ (ψ.analyzeIn s).errors = []
    rw [Bool.and_eq_true, List.append_eq_nil_iff, ihφ, ihψ]
  | negation p sign φ ih => exact ih s
  | comparison p o x y => exact s.comparison_valid p o.value x y
  | relation p r xs => exact s.relation_valid p r xs

/-! ## What valid formulas are like -/

theorem Scope.operands_of_valid {p : Span} {o : Comparison} {x y : Placed Span Variable}
    (h : (s.comparison p o x y).valid = true) :
    s.contains x.value.name = true ∧
      (x.value.name = y.value.name ∨
        s.contains y.value.name = true ∧ x.value.sort = y.value.sort) := by
  unfold Scope.comparison at h
  split at h
  · rename_i hname
    exact ⟨h, Or.inl hname⟩
  · dsimp only at h
    rw [Bool.and_eq_true, Bool.and_eq_true, beq_iff_eq] at h
    obtain ⟨⟨hx, hy⟩, hsort⟩ := h
    exact ⟨hx, Or.inr ⟨hy, hsort⟩⟩

theorem Scope.arguments_of_valid {p : Span} {r : Placed Span Relation}
    {xs : List (Placed Span Variable)} (h : (s.relation p r xs).valid = true) :
    s.admitsSymbol r.value = true ∧ xs.length = r.value.arity ∧
      ∀ y ∈ xs, y.value.sort = .element ∧ s.contains y.value.name = true := by
  unfold Scope.relation at h
  dsimp only at h
  rw [Bool.and_eq_true, Bool.and_eq_true, beq_iff_eq, List.all_eq_true] at h
  obtain ⟨⟨hsymbol, hlen⟩, hargs⟩ := h
  refine ⟨hsymbol, hlen, fun y hy => ?_⟩
  have hy' := hargs y hy
  unfold Scope.admitsArgument at hy'
  rwa [Bool.and_eq_true, beq_iff_eq] at hy'

theorem wellSorted_of_valid (hvalid : (φ.analyzeIn s).valid = true)
    (hfree : ∀ x, φ.Free x → s.lookup x.name = some x.sort) : φ.WellSorted := by
  induction φ generalizing s with
  | quantified p q y φ ih =>
    obtain ⟨hnew, hbody⟩ := (Bool.and_eq_true _ _).mp hvalid
    refine ih hbody fun x hx => ?_
    exact Scope.lookup_push_of_new (by simpa using hnew) fun hne => hfree x ⟨hne, hx⟩
  | binary p c φ ψ ihφ ihψ =>
    obtain ⟨hleft, hright⟩ := (Bool.and_eq_true _ _).mp hvalid
    exact ⟨ihφ hleft fun x hx => hfree x (Or.inl hx), ihψ hright fun x hx => hfree x (Or.inr hx)⟩
  | negation p sign φ ih => exact ih hvalid hfree
  | comparison p o x y =>
    obtain ⟨-, hname | ⟨-, hsort⟩⟩ := Scope.operands_of_valid hvalid
    · -- One name is in scope with one sort, so that the sorts need no check.
      have hx := hfree x.value (Or.inl rfl)
      have hy := hfree y.value (Or.inr rfl)
      rw [hname, hy, Option.some_inj] at hx
      exact hx.symm
    · exact hsort
  | relation p r xs =>
    obtain ⟨-, hlen, hargs⟩ := Scope.arguments_of_valid hvalid
    exact ⟨hlen, fun y hy => (hargs y hy).1⟩

/-! ## Spelled formulas -/

theorem Formula.Spelled.of_free {σ : Type} {φ : Formula σ} (hφ : φ.Spelled) (hx : φ.Free x) :
    x.Spelled := by
  induction φ with
  | quantified p q y φ ih => exact ih hφ.2 hx.2
  | binary p c φ ψ ihφ ihψ =>
    rcases hx with hx | hx
    · exact ihφ hφ.1 hx
    · exact ihψ hφ.2 hx
  | negation p sign φ ih => exact ih hφ hx
  | comparison p o y z =>
    rcases hx with rfl | rfl
    · exact hφ.1
    · exact hφ.2
  | relation p r xs =>
    rcases hx with hr | ⟨y, hy, rfl⟩
    · obtain ⟨pr, r⟩ := r
      cases r with
      | edge => cases hr
      | set name =>
        cases hr
        exact hφ.1
    · exact hφ.2 y hy

theorem contains_of_free (hφ : φ.Spelled) (hvalid : (φ.analyzeIn s).valid = true)
    (hx : φ.Free x) : s.contains x.name = true := by
  induction φ generalizing s with
  | quantified p q y φ ih =>
    have hin := ih hφ.2 ((Bool.and_eq_true _ _).mp hvalid).2 hx.2
    rcases Scope.contains_push.mp hin with hname | hin
    · -- The binder binds this name in the other sort, which its spelling excludes.
      exact absurd ((hφ.2.of_free hx.2).eq hφ.1 hname.symm) hx.1
    · exact hin
  | binary p c φ ψ ihφ ihψ =>
    obtain ⟨hleft, hright⟩ := (Bool.and_eq_true _ _).mp hvalid
    rcases hx with hx | hx
    · exact ihφ hφ.1 hleft hx
    · exact ihψ hφ.2 hright hx
  | negation p sign φ ih => exact ih hφ hvalid hx
  | comparison p o y z =>
    obtain ⟨hy, hname | ⟨hz, -⟩⟩ := Scope.operands_of_valid hvalid
    · rcases hx with rfl | rfl
      · exact hy
      · rwa [← hname]
    · rcases hx with rfl | rfl
      · exact hy
      · exact hz
  | relation p r xs =>
    obtain ⟨hsymbol, -, hargs⟩ := Scope.arguments_of_valid hvalid
    rcases hx with hr | ⟨y, hy, rfl⟩
    · obtain ⟨pr, r⟩ := r
      cases r with
      | edge => cases hr
      | set name =>
        cases hr
        exact hsymbol
    · exact (hargs y hy).2

theorem closed_of_valid (hφ : φ.Spelled) (hvalid : φ.analyze.valid = true) : ∀ x, ¬ φ.Free x := by
  intro x hx
  exact Bool.false_ne_true (contains_of_free hφ hvalid hx)

end GraphLogic
