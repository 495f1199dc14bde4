import GraphLogic.Proofs.Evaluation.Faults
import GraphLogic.Proofs.Evaluation.Verdict
import GraphLogic.Proofs.Formula.Sites

/-!
# Faults and the nodes to blame

**Theorem (`holds_blames`).** Where evaluation faults, a node of the formula bears the fault out: it
is a predicate that reads a variable without a value, which no quantifier around it binds; or a
comparison between the sorts; or a relation with an argument that is a set; or one with a wrong
number of arguments, all of them elements.

Evaluation binds a variable at each quantifier on its way to a node, so that the variables without a
value there are those that lack one from the start and are not bound on the way.
-/

namespace GraphLogic

variable {σ : Type} {φ : Formula σ} {g : Graph} {s : Assignment} {e : EvaluationFault}

/-- The node, where it stands, bears out the fault of an evaluation that starts from the assignment.
A fault about a number of arguments names the relation, and so the number that was expected. -/
def Site.Blamed (s : Assignment) (site : Site σ) : EvaluationFault → Prop
  | .unassigned x => site.node.Reads x ∧ x ∉ site.scope.bound ∧ s.Lacks x
  | .sortMismatch l r =>
    l ≠ r ∧ ∃ p o x y, site.node = .comparison p o x y ∧ x.value.sort = l ∧ y.value.sort = r
  | .notAnElement r name =>
    ∃ p r' xs, site.node = .relation p r' xs ∧ r'.value = r ∧ ∃ x ∈ xs, x.value = ⟨.set, name⟩
  | .arityMismatch r found =>
    found ≠ r.arity ∧ ∃ p r' xs, site.node = .relation p r' xs ∧ r'.value = r ∧
      xs.length = found ∧ ∀ x ∈ xs, x.value.sort = .element

/-- Each predicate stands somewhere in the formula. -/
theorem Formula.exists_site_of_atom {a : Formula σ} (ha : a ∈ φ.atoms) (scope : Scope) :
    ∃ site ∈ φ.sites scope, site.node = a := by
  induction φ generalizing scope with
  | quantified p q x φ ih =>
    obtain ⟨site, hsite, hnode⟩ := ih ha (scope.push x.value)
    exact ⟨site, List.mem_cons_of_mem _ hsite, hnode⟩
  | binary p c φ ψ ihφ ihψ =>
    rcases List.mem_append.mp ha with ha | ha
    · obtain ⟨site, hsite, hnode⟩ := ihφ ha scope
      exact ⟨site, List.mem_cons_of_mem _ (List.mem_append_left _ hsite), hnode⟩
    · obtain ⟨site, hsite, hnode⟩ := ihψ ha scope
      exact ⟨site, List.mem_cons_of_mem _ (List.mem_append_right _ hsite), hnode⟩
  | negation p sign φ ih =>
    obtain ⟨site, hsite, hnode⟩ := ih ha scope
    exact ⟨site, List.mem_cons_of_mem _ hsite, hnode⟩
  | comparison p o x y => exact ⟨_, mem_sites_self _ scope, (List.mem_singleton.mp ha).symm⟩
  | relation p r xs => exact ⟨_, mem_sites_self _ scope, (List.mem_singleton.mp ha).symm⟩

/-- What makes a formula fault is one of its nodes. -/
theorem Formula.Justifies.exists_blamed (h : φ.Justifies s e) :
    ∃ site ∈ φ.sites {}, site.Blamed s e := by
  cases e with
  | unassigned x =>
    obtain ⟨hfree, hlacks⟩ := h
    obtain ⟨site, hsite, hreads, hout⟩ := (free_iff_exists_site List.not_mem_nil).mp hfree
    exact ⟨site, hsite, hreads, hout, hlacks⟩
  | sortMismatch l r =>
    obtain ⟨hne, p, o, x, y, hatom, hsorts⟩ := h
    obtain ⟨site, hsite, hnode⟩ := exists_site_of_atom hatom {}
    exact ⟨site, hsite, hne, p, o, x, y, hnode, hsorts⟩
  | notAnElement r name =>
    obtain ⟨p, r', xs, hatom, hargs⟩ := h
    obtain ⟨site, hsite, hnode⟩ := exists_site_of_atom hatom {}
    exact ⟨site, hsite, p, r', xs, hnode, hargs⟩
  | arityMismatch r found =>
    obtain ⟨hne, p, r', xs, hatom, hargs⟩ := h
    obtain ⟨site, hsite, hnode⟩ := exists_site_of_atom hatom {}
    exact ⟨site, hsite, hne, p, r', xs, hnode, hargs⟩

/-- **Evaluation faults are never spurious.** -/
theorem holds_blames (h : ((φ.holds g).runOn s).1 = .error e) :
    ∃ site ∈ φ.sites {}, site.Blamed s e := by
  have hyields : (φ.holds g).runOn s = (φ.verdict g s, s) := holds_yields g φ s
  rw [hyields] at h
  exact (verdict_justified h).exists_blamed

/-- `∃x ¬x(x)`, with a set and an element that are both called `x`: the quantifier binds the one
that is not missing. -/
theorem holds_blames_other_sort :
    let x : Placed Unit Variable := ⟨(), ⟨.element, "x"⟩⟩
    let φ : Formula Unit := .quantified () ⟨(), .existential⟩ x
      (.negation () () (.relation () ⟨(), .set "x"⟩ [x]))
    let g : Graph := { rows := [(⟨"a"⟩, [])] }
    let s : Assignment := { elements := ⟨[("x", 3)]⟩ }
    ((φ.holds g).runOn s).1 = .error (.unassigned ⟨.set, "x"⟩) ∧
      ∃ site ∈ φ.sites {}, site.Blamed s (.unassigned ⟨.set, "x"⟩) := by
  intro x φ g s
  have hfault : ((φ.holds g).runOn s).1 = .error (.unassigned ⟨.set, "x"⟩) := rfl
  exact ⟨hfault, holds_blames hfault⟩

end GraphLogic
