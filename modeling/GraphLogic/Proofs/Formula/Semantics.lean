import GraphLogic.Formula
import GraphLogic.Graph
import Mathlib.Data.Set.Basic
import Mathlib.Logic.Function.Basic

/-!
# The meaning of formulas

What a formula says about a graph, without any evaluation: element variables stand for vertices,
set variables for sets of them, quantifiers range over all vertices and over all sets of vertices,
and adjacency is read off the edges of the graph. Vertices go by their ids.

Formulas of the logic are the `WellSorted` ones; the others have no meaning, and `Satisfied` calls
their predicates false.

**Theorem (`Formula.satisfied_congr`).** What a formula says depends on the values of its free
variables only.
-/

namespace GraphLogic

/-- Values for all variables of both sorts. -/
structure Valuation where
  element : String → VertexId
  set : String → Set VertexId

namespace Valuation

def withElement (ν : Valuation) (name : String) (i : VertexId) : Valuation :=
  { ν with element := Function.update ν.element name i }

def withSet (ν : Valuation) (name : String) (S : Set VertexId) : Valuation :=
  { ν with set := Function.update ν.set name S }

/-- Two variables of one sort have the same value: the same vertex, or sets with the same
members. -/
def Agrees (ν : Valuation) : Variable → Variable → Prop
  | ⟨.element, x⟩, ⟨.element, y⟩ => ν.element x = ν.element y
  | ⟨.set, x⟩, ⟨.set, y⟩ => ν.set x = ν.set y
  | _, _ => False

end Valuation

/-- An edge joins the vertices with the ids `i` and `j`. -/
def Graph.Joined (g : Graph) (i j : VertexId) : Prop :=
  ∃ a b, g.vertex? i = some a ∧ g.vertex? j = some b ∧ ∃ e ∈ g.edges, e.joins a b = true

/-- The relation holds of the variables. -/
def Valuation.Relates {σ : Type} (g : Graph) (ν : Valuation) :
    Relation → List (Placed σ Variable) → Prop
  | .edge, [⟨_, ⟨.element, x⟩⟩, ⟨_, ⟨.element, y⟩⟩] => g.Joined (ν.element x) (ν.element y)
  | .set X, [⟨_, ⟨.element, x⟩⟩] => ν.element x ∈ ν.set X
  | _, _ => False

namespace Formula

variable {σ : Type}

/-- The formula is true in the graph, with the values that `ν` gives to its free variables. -/
def Satisfied (g : Graph) : Formula σ → Valuation → Prop
  | quantified _ ⟨_, .existential⟩ ⟨_, ⟨.element, x⟩⟩ φ, ν =>
    ∃ i < g.vertexCount, φ.Satisfied g (ν.withElement x i)
  | quantified _ ⟨_, .universal⟩ ⟨_, ⟨.element, x⟩⟩ φ, ν =>
    ∀ i < g.vertexCount, φ.Satisfied g (ν.withElement x i)
  | quantified _ ⟨_, .existential⟩ ⟨_, ⟨.set, X⟩⟩ φ, ν =>
    ∃ S : Set VertexId, (∀ i ∈ S, i < g.vertexCount) ∧ φ.Satisfied g (ν.withSet X S)
  | quantified _ ⟨_, .universal⟩ ⟨_, ⟨.set, X⟩⟩ φ, ν =>
    ∀ S : Set VertexId, (∀ i ∈ S, i < g.vertexCount) → φ.Satisfied g (ν.withSet X S)
  | binary _ ⟨_, .and⟩ φ ψ, ν => φ.Satisfied g ν ∧ ψ.Satisfied g ν
  | binary _ ⟨_, .or⟩ φ ψ, ν => φ.Satisfied g ν ∨ ψ.Satisfied g ν
  | binary _ ⟨_, .implies⟩ φ ψ, ν => φ.Satisfied g ν → ψ.Satisfied g ν
  | binary _ ⟨_, .iff⟩ φ ψ, ν => φ.Satisfied g ν ↔ ψ.Satisfied g ν
  | negation _ _ φ, ν => ¬ φ.Satisfied g ν
  | comparison _ ⟨_, .equal⟩ ⟨_, x⟩ ⟨_, y⟩, ν => ν.Agrees x y
  | comparison _ ⟨_, .unequal⟩ ⟨_, x⟩ ⟨_, y⟩, ν => ¬ ν.Agrees x y
  | relation _ ⟨_, r⟩ xs, ν => ν.Relates g r xs

/-- Comparisons are between variables of one sort, and relations apply to as many element
variables as they take. -/
def WellSorted : Formula σ → Prop
  | quantified _ _ _ φ => φ.WellSorted
  | binary _ _ φ ψ => φ.WellSorted ∧ ψ.WellSorted
  | negation _ _ φ => φ.WellSorted
  | comparison _ _ x y => x.value.sort = y.value.sort
  | relation _ r xs => xs.length = r.value.arity ∧ ∀ x ∈ xs, x.value.sort = .element

instance decidableWellSorted : (φ : Formula σ) → Decidable φ.WellSorted
  | quantified _ _ _ φ => φ.decidableWellSorted
  | binary _ _ φ ψ =>
    have := φ.decidableWellSorted
    have := ψ.decidableWellSorted
    inferInstanceAs (Decidable (φ.WellSorted ∧ ψ.WellSorted))
  | negation _ _ φ => φ.decidableWellSorted
  | comparison _ _ x y => inferInstanceAs (Decidable (x.value.sort = y.value.sort))
  | relation _ r xs =>
    inferInstanceAs (Decidable (xs.length = r.value.arity ∧ ∀ x ∈ xs, x.value.sort = .element))

end Formula

/-- The set variable that a relation symbol is. -/
def Relation.variable? : Relation → Option Variable
  | edge => none
  | set name => some ⟨.set, name⟩

/-- The variable occurs free in the formula. Variables of different sorts are different, also when
they have the same name. -/
def Formula.Free {σ : Type} (x : Variable) : Formula σ → Prop
  | quantified _ _ y φ => x ≠ y.value ∧ φ.Free x
  | binary _ _ φ ψ => φ.Free x ∨ ψ.Free x
  | negation _ _ φ => φ.Free x
  | comparison _ _ y z => x = y.value ∨ x = z.value
  | relation _ r ys => r.value.variable? = some x ∨ ∃ y ∈ ys, x = y.value

/-! ## Only the free variables matter -/

/-- The valuations give the variable the same value. -/
def Valuation.SameAt (ν μ : Valuation) : Variable → Prop
  | ⟨.element, x⟩ => ν.element x = μ.element x
  | ⟨.set, x⟩ => ν.set x = μ.set x

namespace Valuation

variable {σ : Type} {ν μ : Valuation} {x y : Variable} {name : String}

/-- Updated at the same name, functions agree where they did elsewhere. -/
theorem update_congr {α : Type} {f g : String → α} {other : String} (a : α)
    (h : other ≠ name → f other = g other) :
    Function.update f name a other = Function.update g name a other := by
  by_cases heq : other = name
  · rw [heq, Function.update_self, Function.update_self]
  · rw [Function.update_of_ne heq, Function.update_of_ne heq]
    exact h heq

theorem SameAt.withElement (i : VertexId) (h : y ≠ ⟨.element, name⟩ → ν.SameAt μ y) :
    (ν.withElement name i).SameAt (μ.withElement name i) y := by
  obtain ⟨sort, other⟩ := y
  cases sort with
  | element => exact update_congr i fun hne => h fun hx => hne (Variable.mk.inj hx).2
  | set => exact h fun hx => VarSort.noConfusion (Variable.mk.inj hx).1

theorem SameAt.withSet (S : Set VertexId) (h : y ≠ ⟨.set, name⟩ → ν.SameAt μ y) :
    (ν.withSet name S).SameAt (μ.withSet name S) y := by
  obtain ⟨sort, other⟩ := y
  cases sort with
  | element => exact h fun hx => VarSort.noConfusion (Variable.mk.inj hx).1
  | set => exact update_congr S fun hne => h fun hx => hne (Variable.mk.inj hx).2

theorem agrees_congr (hx : ν.SameAt μ x) (hy : ν.SameAt μ y) : ν.Agrees x y ↔ μ.Agrees x y := by
  obtain ⟨sx, x⟩ := x
  obtain ⟨sy, y⟩ := y
  unfold SameAt at hx hy
  cases sx <;> cases sy <;> simp_all [Agrees]

theorem relates_congr {g : Graph} {r : Relation} {xs : List (Placed σ Variable)}
    (hr : ∀ x, r.variable? = some x → ν.SameAt μ x) (hxs : ∀ x ∈ xs, ν.SameAt μ x.value) :
    ν.Relates g r xs ↔ μ.Relates g r xs := by
  unfold Relates
  split
  · rename_i p x q y
    have hx : ν.element x = μ.element x := hxs ⟨p, ⟨.element, x⟩⟩ (by simp)
    have hy : ν.element y = μ.element y := hxs ⟨q, ⟨.element, y⟩⟩ (by simp)
    rw [hx, hy]
  · rename_i X p x
    have hX : ν.set X = μ.set X := hr ⟨.set, X⟩ rfl
    have hx : ν.element x = μ.element x := hxs ⟨p, ⟨.element, x⟩⟩ (by simp)
    rw [hX, hx]
  · exact Iff.rfl

end Valuation

/-- What a connective says depends on what its sides say. -/
theorem Formula.satisfied_binary_congr {σ τ : Type} {g h : Graph} {ν μ : Valuation} {p : σ}
    {q : τ} {c : Placed σ Connective} {d : Placed τ Connective} {φ ψ : Formula σ}
    {φ' ψ' : Formula τ} (hc : c.value = d.value) (hφ : φ.Satisfied g ν ↔ φ'.Satisfied h μ)
    (hψ : ψ.Satisfied g ν ↔ ψ'.Satisfied h μ) :
    (binary p c φ ψ).Satisfied g ν ↔ (binary q d φ' ψ').Satisfied h μ := by
  obtain ⟨pc, c⟩ := c
  obtain ⟨qd, d⟩ := d
  obtain rfl : c = d := hc
  cases c with
  | and => exact and_congr hφ hψ
  | or => exact or_congr hφ hψ
  | implies => exact imp_congr hφ hψ
  | iff => exact iff_congr hφ hψ

/-- **Coincidence.** Valuations that agree on the free variables satisfy the same. -/
theorem Formula.satisfied_congr {σ : Type} {g : Graph} (φ : Formula σ) {ν μ : Valuation}
    (h : ∀ x, φ.Free x → ν.SameAt μ x) : φ.Satisfied g ν ↔ φ.Satisfied g μ := by
  induction φ generalizing ν μ with
  | quantified p q x φ ih =>
    obtain ⟨pq, q⟩ := q
    obtain ⟨px, ⟨sort, name⟩⟩ := x
    cases sort with
    | element =>
      have hbody : ∀ i, φ.Satisfied g (ν.withElement name i) ↔
          φ.Satisfied g (μ.withElement name i) :=
        fun i => ih fun y hy => Valuation.SameAt.withElement i fun hne => h y ⟨hne, hy⟩
      cases q with
      | existential => exact exists_congr fun i => and_congr_right fun _ => hbody i
      | universal => exact forall_congr' fun i => imp_congr_right fun _ => hbody i
    | set =>
      have hbody : ∀ S, φ.Satisfied g (ν.withSet name S) ↔ φ.Satisfied g (μ.withSet name S) :=
        fun S => ih fun y hy => Valuation.SameAt.withSet S fun hne => h y ⟨hne, hy⟩
      cases q with
      | existential => exact exists_congr fun S => and_congr_right fun _ => hbody S
      | universal => exact forall_congr' fun S => imp_congr_right fun _ => hbody S
  | binary p c φ ψ ihφ ihψ =>
    have hφ := ihφ fun x hx => h x (Or.inl hx)
    have hψ := ihψ fun x hx => h x (Or.inr hx)
    exact satisfied_binary_congr rfl hφ hψ
  | negation p sign φ ih => exact not_congr (ih h)
  | comparison p o x y =>
    obtain ⟨po, o⟩ := o
    have hxy := Valuation.agrees_congr (h x.value (Or.inl rfl)) (h y.value (Or.inr rfl))
    cases o with
    | equal => exact hxy
    | unequal => exact not_congr hxy
  | relation p r xs =>
    exact Valuation.relates_congr (fun x hx => h x (Or.inl hx))
      fun x hx => h x.value (Or.inr ⟨x, hx, rfl⟩)

end GraphLogic
