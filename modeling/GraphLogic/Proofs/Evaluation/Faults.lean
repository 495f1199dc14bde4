import GraphLogic.Proofs.Evaluation.Coincidence
import GraphLogic.Proofs.Except

/-!
# Faults have a cause

**Theorem (`verdict_justified`).** Where evaluation faults, a predicate of the formula is to blame,
and the fault says for what: a free variable without a value, a comparison between the sorts, an
argument that is a set, or a wrong number of arguments.

So a formula of the logic with values for its free variables does not fault (`exists_verdict`).
-/

namespace GraphLogic

variable {σ : Type}

namespace Formula

/-- The predicates of the formula, from left to right. -/
def atoms : Formula σ → List (Formula σ)
  | quantified _ _ _ φ => φ.atoms
  | binary _ _ φ ψ => φ.atoms ++ ψ.atoms
  | negation _ _ φ => φ.atoms
  | φ@(comparison ..) | φ@(relation ..) => [φ]

end Formula

/-- The assignment gives the variable no value. -/
def Assignment.Lacks (s : Assignment) : Variable → Prop
  | ⟨.element, name⟩ => s.elements.get? name = none
  | ⟨.set, name⟩ => s.sets.get? name = none

/-- Something in the formula makes evaluation fault in this way. -/
def Formula.Justifies (φ : Formula σ) (s : Assignment) : EvaluationFault → Prop
  | .unassigned x => φ.Free x ∧ s.Lacks x
  | .sortMismatch l r =>
    l ≠ r ∧ ∃ p o x y, comparison p o x y ∈ φ.atoms ∧ x.value.sort = l ∧ y.value.sort = r
  | .notAnElement r name =>
    ∃ p s xs, relation p s xs ∈ φ.atoms ∧ s.value = r ∧ ∃ x ∈ xs, x.value = ⟨.set, name⟩
  | .arityMismatch r found =>
    found ≠ r.arity ∧ ∃ p s xs, relation p s xs ∈ φ.atoms ∧ s.value = r ∧ xs.length = found ∧
      ∀ x ∈ xs, x.value.sort = .element

variable {g : Graph} {s : Assignment} {φ ψ : Formula σ} {e : EvaluationFault} {name : String}

/-! ## Where a fault comes from -/

theorem fault_of_decideAmong {α : Type} {decisive : Bool}
    {trial : α → Except EvaluationFault Bool} {as : List α}
    (h : decideAmong decisive trial as = .error e) : ∃ a ∈ as, trial a = .error e := by
  induction as with
  | nil => cases h
  | cons a as ih =>
    rcases error_of_bind h with ha | ⟨b, -, h⟩
    · exact ⟨a, List.mem_cons_self, ha⟩
    · split at h
      · cases h
      · obtain ⟨a', hmem, ha'⟩ := ih h
        exact ⟨a', List.mem_cons_of_mem _ hmem, ha'⟩

theorem fault_of_elementValue (h : s.elementValue name = .error e) :
    e = .unassigned ⟨.element, name⟩ ∧ s.Lacks ⟨.element, name⟩ := by
  unfold Assignment.elementValue at h
  split at h
  · cases h
  · rename_i hnone
    cases h
    exact ⟨rfl, hnone⟩

theorem fault_of_setValue (h : s.setValue name = .error e) :
    e = .unassigned ⟨.set, name⟩ ∧ s.Lacks ⟨.set, name⟩ := by
  unfold Assignment.setValue at h
  split at h
  · cases h
  · rename_i hnone
    cases h
    exact ⟨rfl, hnone⟩

/-- A comparison faults on its first operand without a value, or on the sorts. -/
theorem fault_of_equates {x y : Variable} (h : s.equates x y = .error e) :
    (∃ z, (z = x ∨ z = y) ∧ e = .unassigned z ∧ s.Lacks z) ∨
      x.sort ≠ y.sort ∧ e = .sortMismatch x.sort y.sort := by
  obtain ⟨sx, x⟩ := x
  obtain ⟨sy, y⟩ := y
  cases sx <;> cases sy
  · rcases error_of_bind h with hx | ⟨i, -, h⟩
    · exact Or.inl ⟨_, Or.inl rfl, fault_of_elementValue hx⟩
    · rcases error_of_bind h with hy | ⟨j, -, h⟩
      · exact Or.inl ⟨_, Or.inr rfl, fault_of_elementValue hy⟩
      · cases h
  · cases h
    exact Or.inr ⟨VarSort.noConfusion, rfl⟩
  · cases h
    exact Or.inr ⟨VarSort.noConfusion, rfl⟩
  · rcases error_of_bind h with hx | ⟨i, -, h⟩
    · exact Or.inl ⟨_, Or.inl rfl, fault_of_setValue hx⟩
    · rcases error_of_bind h with hy | ⟨j, -, h⟩
      · exact Or.inl ⟨_, Or.inr rfl, fault_of_setValue hy⟩
      · cases h

theorem fault_of_argumentValues {r : Relation} {xs : List (Placed σ Variable)}
    (h : s.argumentValues r xs = .error e) :
    (∃ x ∈ xs, e = .unassigned x.value ∧ s.Lacks x.value) ∨
      ∃ x ∈ xs, ∃ name, x.value = ⟨.set, name⟩ ∧ e = .notAnElement r name := by
  induction xs with
  | nil => cases h
  | cons x xs ih =>
    obtain ⟨p, ⟨sort, name⟩⟩ := x
    cases sort with
    | element =>
      rcases error_of_bind h with hx | ⟨i, -, h⟩
      · exact Or.inl ⟨_, List.mem_cons_self, fault_of_elementValue hx⟩
      · rcases error_of_bind h with hxs | ⟨is, -, h⟩
        · rcases ih hxs with ⟨x, hx, hfault⟩ | ⟨x, hx, hfault⟩
          · exact Or.inl ⟨x, List.mem_cons_of_mem _ hx, hfault⟩
          · exact Or.inr ⟨x, List.mem_cons_of_mem _ hx, hfault⟩
        · cases h
    | set =>
      cases h
      exact Or.inr ⟨_, List.mem_cons_self, name, rfl, rfl⟩

/-- Arguments that all have values are element variables, and there are as many values. -/
theorem sorts_of_argumentValues {r : Relation} {xs : List (Placed σ Variable)}
    {ids : List VertexId} (h : s.argumentValues r xs = .ok ids) :
    ids.length = xs.length ∧ ∀ x ∈ xs, x.value.sort = .element := by
  induction xs generalizing ids with
  | nil =>
    cases h
    exact ⟨rfl, fun _ hx => absurd hx List.not_mem_nil⟩
  | cons x xs ih =>
    obtain ⟨p, ⟨sort, name⟩⟩ := x
    cases sort with
    | element =>
      obtain ⟨i, -, h⟩ := exists_of_bind_eq_ok h
      obtain ⟨is, his, h⟩ := exists_of_bind_eq_ok h
      cases h
      obtain ⟨hlen, hsort⟩ := ih his
      refine ⟨congrArg (· + 1) hlen, fun x hx => ?_⟩
      rcases List.mem_cons.mp hx with rfl | hx
      · rfl
      · exact hsort x hx
    | set => cases h

theorem fault_of_relates {r : Relation} {ids : List VertexId}
    (h : s.relates g r ids = .error e) :
    (∃ x, r.variable? = some x ∧ e = .unassigned x ∧ s.Lacks x) ∨
      ids.length ≠ r.arity ∧ e = .arityMismatch r ids.length := by
  unfold Assignment.relates at h
  split at h
  · cases h
  · rcases error_of_bind h with hX | ⟨x, -, h⟩
    · exact Or.inl ⟨_, rfl, fault_of_setValue hX⟩
    · cases h
  · rename_i hedge hset
    cases h
    refine Or.inr ⟨fun hlen => ?_, rfl⟩
    cases r with
    | edge =>
      obtain ⟨i, j, rfl⟩ := List.length_eq_two.mp hlen
      exact hedge i j rfl rfl
    | set X =>
      obtain ⟨i, rfl⟩ := List.length_eq_one_iff.mp hlen
      exact hset X i rfl rfl

/-! ## Causes, from the inside out -/

/-- What is bound does not lack a value, and binding it helps no other variable. -/
theorem lacks_of_binds {x y : Variable} {t : Assignment} (hbinds : s.Binds y t)
    (hx : t.Lacks x) : x ≠ y ∧ s.Lacks x := by
  have hne : x ≠ y := by
    rintro rfl
    obtain ⟨sort, name⟩ := x
    cases sort with
    | element =>
      obtain ⟨i, rfl⟩ := hbinds
      have hget : (s.elements.put name i).get? name = none := hx
      rw [Values.get?_put, if_pos rfl] at hget
      cases hget
    | set =>
      obtain ⟨u, rfl⟩ := hbinds
      have hget : (s.sets.put name u).get? name = none := hx
      rw [Values.get?_put, if_pos rfl] at hget
      cases hget
  have hsame : t.SameAt s x := Assignment.sameAt_of_binds hbinds hne
  refine ⟨hne, ?_⟩
  obtain ⟨sort, name⟩ := x
  cases sort with
  | element => exact hsame.symm.trans hx
  | set => exact hsame.symm.trans hx

theorem Formula.Justifies.mono {t : Assignment} (h : φ.Justifies s e)
    (hatoms : ∀ a ∈ φ.atoms, a ∈ ψ.atoms)
    (hfree : ∀ x, φ.Free x → s.Lacks x → ψ.Free x ∧ t.Lacks x) : ψ.Justifies t e := by
  cases e with
  | unassigned x => exact hfree x h.1 h.2
  | sortMismatch l r =>
    obtain ⟨hne, p, o, x, y, hmem, hsorts⟩ := h
    exact ⟨hne, p, o, x, y, hatoms _ hmem, hsorts⟩
  | notAnElement r name =>
    obtain ⟨p, r', xs, hmem, hargs⟩ := h
    exact ⟨p, r', xs, hatoms _ hmem, hargs⟩
  | arityMismatch r found =>
    obtain ⟨hne, p, r', xs, hmem, hargs⟩ := h
    exact ⟨hne, p, r', xs, hatoms _ hmem, hargs⟩

/-- **Faults have a cause.** -/
theorem verdict_justified (h : φ.verdict g s = .error e) : φ.Justifies s e := by
  induction φ generalizing s with
  | quantified p q x φ ih =>
    obtain ⟨t, hbinds, ht⟩ : ∃ t, s.Binds x.value t ∧ φ.verdict g t = .error e := by
      obtain ⟨px, ⟨sort, name⟩⟩ := x
      cases sort with
      | element =>
        obtain ⟨i, -, hi⟩ := fault_of_decideAmong h
        exact ⟨_, ⟨i, rfl⟩, hi⟩
      | set =>
        obtain ⟨u, -, hu⟩ := fault_of_decideAmong h
        exact ⟨_, ⟨u, rfl⟩, hu⟩
    refine (ih ht).mono (fun _ ha => ha) ?_
    intro y hy hlacks
    obtain ⟨hne, hlacks⟩ := lacks_of_binds hbinds hlacks
    exact ⟨⟨hne, hy⟩, hlacks⟩
  | binary p c φ ψ ihφ ihψ =>
    have hleft : φ.verdict g s = .error e → (Formula.binary p c φ ψ).Justifies s e := fun h =>
      (ihφ h).mono (fun _ => List.mem_append_left _) fun y hy hlacks => ⟨Or.inl hy, hlacks⟩
    have hright : ψ.verdict g s = .error e → (Formula.binary p c φ ψ).Justifies s e := fun h =>
      (ihψ h).mono (fun _ => List.mem_append_right _) fun y hy hlacks => ⟨Or.inr hy, hlacks⟩
    rcases error_of_bind h with h | ⟨left, -, h⟩
    · exact hleft h
    · obtain ⟨pc, c⟩ := c
      cases c with
      | and =>
        cases left with
        | true => exact hright h
        | false => cases h
      | or =>
        cases left with
        | true => cases h
        | false => exact hright h
      | implies =>
        cases left with
        | true => exact hright h
        | false => cases h
      | iff =>
        rcases error_of_bind h with h | ⟨right, -, h⟩
        · exact hright h
        · cases h
  | negation p sign φ ih =>
    rcases error_of_bind h with h | ⟨b, -, h⟩
    · exact ih h
    · cases h
  | comparison p o x y =>
    rcases error_of_bind h with h | ⟨b, -, h⟩
    · rcases fault_of_equates h with ⟨z, hz, rfl, hlacks⟩ | ⟨hne, rfl⟩
      · exact ⟨hz, hlacks⟩
      · exact ⟨hne, p, o, x, y, List.mem_singleton_self _, rfl, rfl⟩
    · split at h <;> cases h
  | relation p r xs =>
    rcases error_of_bind h with h | ⟨ids, hids, h⟩
    · rcases fault_of_argumentValues h with ⟨x, hx, rfl, hlacks⟩ | ⟨x, hx, name, hset, rfl⟩
      · exact ⟨Or.inr ⟨x, hx, rfl⟩, hlacks⟩
      · exact ⟨p, r, xs, List.mem_singleton_self _, rfl, x, hx, hset⟩
    · obtain ⟨hlen, hsort⟩ := sorts_of_argumentValues hids
      rcases fault_of_relates h with ⟨x, hx, rfl, hlacks⟩ | ⟨hne, rfl⟩
      · exact ⟨Or.inl hx, hlacks⟩
      · exact ⟨hne, p, r, xs, List.mem_singleton_self _, rfl, hlen.symm, hsort⟩

theorem Formula.WellSorted.atom {a : Formula σ} (hφ : φ.WellSorted) (ha : a ∈ φ.atoms) :
    a.WellSorted := by
  induction φ with
  | quantified p q x φ ih => exact ih hφ ha
  | binary p c φ ψ ihφ ihψ =>
    rcases List.mem_append.mp ha with ha | ha
    · exact ihφ hφ.1 ha
    · exact ihψ hφ.2 ha
  | negation p sign φ ih => exact ih hφ ha
  | comparison p o x y =>
    obtain rfl := List.mem_singleton.mp ha
    exact hφ
  | relation p r xs =>
    obtain rfl := List.mem_singleton.mp ha
    exact hφ

/-- A formula of the logic with values for its free variables does not fault. -/
theorem exists_verdict (hφ : φ.WellSorted) (hs : ∀ x, φ.Free x → ¬ s.Lacks x) :
    ∃ b, φ.verdict g s = .ok b := by
  cases h : φ.verdict g s with
  | ok b => exact ⟨b, rfl⟩
  | error e =>
    have hcause := verdict_justified h
    exfalso
    cases e with
    | unassigned x => exact hs x hcause.1 hcause.2
    | sortMismatch l r =>
      obtain ⟨hne, p, o, x, y, hmem, rfl, rfl⟩ := hcause
      exact hne (hφ.atom hmem)
    | notAnElement r name =>
      obtain ⟨p, r', xs, hmem, rfl, x, hx, hset⟩ := hcause
      have helement := (hφ.atom hmem).2 x hx
      rw [hset] at helement
      cases helement
    | arityMismatch r found =>
      obtain ⟨hne, p, r', xs, hmem, rfl, rfl, -⟩ := hcause
      exact hne (hφ.atom hmem).1

end GraphLogic
