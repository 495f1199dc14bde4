import GraphLogic.Proofs.Analysis.Traversal
import GraphLogic.Proofs.Formula.Phrase.Tree

/-!
# Where findings stand

**Theorem (`Formula.place_of_mem_diagnostics`).** A finding stands at a node of the formula, at a
symbol of it, or at a span that covers symbols. So what holds of the places of all nodes and
symbols, and of a span that covers two of which it holds, holds of the places of all findings.
-/

namespace GraphLogic

variable {P : Span → Prop} {φ ψ : Formula Span} {names : Finset String}

/-- The property holds of the place of every node and of every symbol of the formula. -/
structure Formula.Everywhere (P : Span → Prop) (φ : Formula Span) : Prop where
  nodes : ∀ n ∈ φ.nodes, P n.place
  symbols : ∀ t ∈ φ.symbols, P t.place

/-- The place of one finding, where there is one. -/
theorem place_of_mem_ite {α : Type} {c : Prop} [Decidable c] {p : Span} {a : α} (hp : P p) :
    (∀ e ∈ if c then [] else [(⟨p, a⟩ : Placed Span α)], P e.place) ∧
      ∀ e ∈ if c then [(⟨p, a⟩ : Placed Span α)] else [], P e.place := by
  split <;> simp [hp]

theorem place_undeclaredUnder {x : Placed Span Variable} (hx : P x.place) :
    ∀ e ∈ undeclaredUnder names x, P e.place :=
  (place_of_mem_ite hx).1

namespace Formula.Everywhere

variable {p sign : Span} {q : Placed Span Quantifier} {x y : Placed Span Variable}
  {c : Placed Span Connective} {o : Placed Span Comparison} {r : Placed Span Relation}
  {xs : List (Placed Span Variable)}

theorem body (h : (Formula.quantified p q x φ).Everywhere P) : φ.Everywhere P :=
  ⟨fun n hn => h.nodes n (List.mem_cons_of_mem _ hn),
    fun t ht => h.symbols t (List.mem_cons_of_mem _ (List.mem_cons_of_mem _ ht))⟩

theorem left (h : (Formula.binary p c φ ψ).Everywhere P) : φ.Everywhere P :=
  ⟨fun n hn => h.nodes n (List.mem_cons_of_mem _ (List.mem_append_left _ hn)),
    fun t ht => h.symbols t (List.mem_append_left _ ht)⟩

theorem right (h : (Formula.binary p c φ ψ).Everywhere P) : ψ.Everywhere P :=
  ⟨fun n hn => h.nodes n (List.mem_cons_of_mem _ (List.mem_append_right _ hn)),
    fun t ht => h.symbols t (List.mem_append_right _ (List.mem_cons_of_mem _ ht))⟩

theorem negated (h : (Formula.negation p sign φ).Everywhere P) : φ.Everywhere P :=
  ⟨fun n hn => h.nodes n (List.mem_cons_of_mem _ hn),
    fun t ht => h.symbols t (List.mem_cons_of_mem _ ht)⟩

theorem bound (h : (Formula.quantified p q x φ).Everywhere P) : P x.place :=
  h.symbols _ (List.mem_cons_of_mem _ List.mem_cons_self)

theorem operands (h : (Formula.comparison p o x y).Everywhere P) : P x.place ∧ P y.place :=
  ⟨h.symbols _ List.mem_cons_self,
    h.symbols _ (List.mem_cons_of_mem _ (List.mem_cons_of_mem _ List.mem_cons_self))⟩

theorem relation (h : (Formula.relation p r xs).Everywhere P) :
    P r.place ∧ ∀ x ∈ xs, P x.place :=
  ⟨h.symbols _ List.mem_cons_self,
    fun _ hx => h.symbols _ (List.mem_cons_of_mem _ (List.mem_map_of_mem hx))⟩

theorem place (h : φ.Everywhere P) : P φ.place := h.nodes φ φ.mem_nodes_self

end Formula.Everywhere

theorem place_arguments (hcover : ∀ p q, P p → P q → P (p.cover q)) {p : Span}
    {xs : List (Placed Span Variable)} (hp : P p) (hxs : ∀ x ∈ xs, P x.place) :
    P (argumentsPlace p xs) := by
  unfold argumentsPlace
  split
  · next first last hfirst hlast =>
    exact hcover _ _ (hxs first (List.mem_of_head? hfirst)) (hxs last (List.mem_of_getLast? hlast))
  · exact hp

/-- Where the errors of a formula stand. -/
theorem Formula.place_of_mem_errorsUnder (hcover : ∀ p q, P p → P q → P (p.cover q))
    (h : φ.Everywhere P) : ∀ e ∈ φ.errorsUnder names, P e.place := by
  induction φ generalizing names with
  | quantified p q x φ ih =>
    exact List.forall_mem_append.mpr ⟨(place_of_mem_ite h.bound).2, ih h.body⟩
  | binary p c φ ψ ihφ ihψ => exact List.forall_mem_append.mpr ⟨ihφ h.left, ihψ h.right⟩
  | negation p sign φ ih => exact ih h.negated
  | comparison p o x y =>
    refine List.forall_mem_append.mpr ⟨place_undeclaredUnder h.operands.1, ?_⟩
    split
    · exact List.forall_mem_nil _
    · exact List.forall_mem_append.mpr
        ⟨place_undeclaredUnder h.operands.2, (place_of_mem_ite h.place).1⟩
  | relation p r xs =>
    obtain ⟨hr, hxs⟩ := h.relation
    refine List.forall_mem_append.mpr ⟨List.forall_mem_append.mpr ⟨?_, ?_⟩, ?_⟩
    · split
      · exact List.forall_mem_nil _
      · exact (place_of_mem_ite hr).1
    · exact (place_of_mem_ite (place_arguments hcover h.place hxs)).1
    · intro e he
      obtain ⟨x, hx, he⟩ := List.mem_flatMap.mp he
      rcases List.mem_append.mp he with he | he
      · exact (place_of_mem_ite (hxs x hx)).2 e he
      · exact place_undeclaredUnder (hxs x hx) e he

/-- Where the warnings of a formula stand. -/
theorem Formula.place_of_mem_cautions (h : φ.Everywhere P) : ∀ w ∈ φ.cautions, P w.place := by
  induction φ with
  | quantified p q x φ ih =>
    exact List.forall_mem_append.mpr ⟨ih h.body, (place_of_mem_ite h.bound).1⟩
  | binary p c φ ψ ihφ ihψ => exact List.forall_mem_append.mpr ⟨ihφ h.left, ihψ h.right⟩
  | negation p sign φ ih => exact ih h.negated
  | comparison p o x y =>
    have hp : P p := h.place
    unfold cautions
    split
    · split <;> simp [hp]
    · exact List.forall_mem_nil _
  | relation p r xs =>
    unfold cautions
    split
    · exact (place_of_mem_ite h.place).2
    · exact List.forall_mem_nil _

/-- **Where findings stand.** What holds of the places of all nodes and symbols of a formula, and of
the cover of two spans of which it holds, holds of the places of all diagnostics of its analysis. -/
theorem Formula.place_of_mem_diagnostics (hcover : ∀ p q, P p → P q → P (p.cover q))
    (h : φ.Everywhere P) : ∀ d ∈ φ.analyze.diagnostics, P d.span := by
  unfold Analysis.diagnostics analyze
  rw [errors_analyzeIn, warnings_analyzeIn]
  refine List.forall_mem_append.mpr ⟨?_, ?_⟩
  · exact List.forall_mem_map.mpr (place_of_mem_errorsUnder hcover h)
  · exact List.forall_mem_map.mpr (place_of_mem_cautions h)

end GraphLogic
