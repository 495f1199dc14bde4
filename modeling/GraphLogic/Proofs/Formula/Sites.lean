import GraphLogic.Proofs.Formula.Semantics
import GraphLogic.Scope

/-!
# The nodes of a formula and their scopes

A node of a formula stands in the scope of the quantifiers around it.

**Theorem (`Formula.free_iff_exists_site`).** A variable is free in a formula exactly if there is a
predicate that reads it where none of the quantifiers around binds it.

So being free, which goes by recursion on the formula, is a matter of single nodes. Binders count
for the variables of their own sort only, whatever their names.
-/

namespace GraphLogic

/-- A node of a formula, and what is in scope where it stands. -/
structure Site (σ : Type) where
  scope : Scope
  node : Formula σ

namespace Formula

variable {σ : Type} {φ : Formula σ} {site : Site σ} {s : Scope} {x : Variable}

/-- The nodes of the formula, each with its scope. -/
def sites {σ : Type} (s : Scope) : Formula σ → List (Site σ)
  | quantified p q x φ => ⟨s, quantified p q x φ⟩ :: φ.sites (s.push x.value)
  | binary p c φ ψ => ⟨s, binary p c φ ψ⟩ :: (φ.sites s ++ ψ.sites s)
  | negation p sign φ => ⟨s, negation p sign φ⟩ :: φ.sites s
  | comparison p o x y => [⟨s, comparison p o x y⟩]
  | relation p r xs => [⟨s, relation p r xs⟩]

@[simp] theorem mem_sites_self {σ : Type} (φ : Formula σ) (s : Scope) : ⟨s, φ⟩ ∈ φ.sites s := by
  cases φ <;> exact List.mem_cons_self

/-- The formula is a predicate, and evaluation looks up the variable for it. -/
def Reads (x : Variable) : Formula σ → Prop
  | comparison _ _ y z => x = y.value ∨ x = z.value
  | relation _ r ys => r.value.variable? = some x ∨ ∃ y ∈ ys, x = y.value
  | quantified .. | binary .. | negation .. => False

/-- What is in scope around a formula is in scope at its nodes. -/
theorem mem_bound_of_mem_sites (hsite : site ∈ φ.sites s) (hx : x ∈ s.bound) :
    x ∈ site.scope.bound := by
  induction φ generalizing s with
  | quantified p q y φ ih =>
    rcases List.mem_cons.mp hsite with rfl | hsite
    · exact hx
    · exact ih hsite (List.mem_cons_of_mem _ hx)
  | binary p c φ ψ ihφ ihψ =>
    rcases List.mem_cons.mp hsite with rfl | hsite
    · exact hx
    rcases List.mem_append.mp hsite with hsite | hsite
    · exact ihφ hsite hx
    · exact ihψ hsite hx
  | negation p sign φ ih =>
    rcases List.mem_cons.mp hsite with rfl | hsite
    · exact hx
    · exact ih hsite hx
  | comparison p o y z =>
    rw [List.mem_singleton.mp hsite]
    exact hx
  | relation p r ys =>
    rw [List.mem_singleton.mp hsite]
    exact hx

/-- **Free variables are read out of the scope of their binders.** -/
theorem free_iff_exists_site (hx : x ∉ s.bound) :
    φ.Free x ↔ ∃ site ∈ φ.sites s, site.node.Reads x ∧ x ∉ site.scope.bound := by
  induction φ generalizing s with
  | quantified p q y φ ih =>
    have hinner : x ≠ y.value ∧ φ.Free x ↔
        ∃ site ∈ φ.sites (s.push y.value), site.node.Reads x ∧ x ∉ site.scope.bound := by
      by_cases hxy : x = y.value
      · -- Everything inside stands in the scope of this very variable.
        refine iff_of_false (fun h => h.1 hxy) ?_
        rintro ⟨site, hsite, -, hout⟩
        exact hout (mem_bound_of_mem_sites hsite (hxy ▸ List.mem_cons_self))
      · have hpush : x ∉ (s.push y.value).bound := List.not_mem_cons_of_ne_of_not_mem hxy hx
        rw [← ih hpush]
        exact and_iff_right hxy
    simp only [sites, List.mem_cons, or_and_right, exists_or, exists_eq_left, ← hinner]
    exact (or_iff_right fun h => h.1).symm
  | binary p c φ ψ ihφ ihψ =>
    simp only [sites, List.mem_cons, List.mem_append, or_and_right, exists_or, exists_eq_left,
      ← ihφ hx, ← ihψ hx]
    exact (or_iff_right fun h => h.1).symm
  | negation p sign φ ih =>
    simp only [sites, List.mem_cons, or_and_right, exists_or, exists_eq_left, ← ih hx]
    exact (or_iff_right fun h => h.1).symm
  | comparison p o y z =>
    simp only [sites, List.mem_singleton, exists_eq_left]
    exact (and_iff_left hx).symm
  | relation p r ys =>
    simp only [sites, List.mem_singleton, exists_eq_left]
    exact (and_iff_left hx).symm

end Formula

end GraphLogic
