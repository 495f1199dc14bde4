import GraphLogic.Proofs.Evaluation.Satisfaction
import GraphLogic.Proofs.Pipeline

/-!
# Outcomes are truth values

**Theorem (`run_decides`).** A run on a text whose formula is valid answers whether the graph
satisfies the formula.

A valid formula that was read is a formula of the logic without free variables, so that neither the
values of variables nor the places of its parts matter to what it says.
-/

namespace GraphLogic

theorem Valuation.relates_mapPlace {σ τ : Type} {g : Graph} {ν : Valuation} (f : σ → τ)
    (r : Relation) (xs : List (Placed σ Variable)) :
    ν.Relates g r (xs.map (·.mapPlace f)) ↔ ν.Relates g r xs := by
  cases r with
  | edge =>
    match xs with
    | [] => exact Iff.rfl
    | [⟨_, ⟨sx, _⟩⟩] => cases sx <;> exact Iff.rfl
    | [⟨_, ⟨sx, _⟩⟩, ⟨_, ⟨sy, _⟩⟩] | ⟨_, ⟨sx, _⟩⟩ :: ⟨_, ⟨sy, _⟩⟩ :: _ :: _ =>
      cases sx <;> cases sy <;> exact Iff.rfl
  | set X =>
    match xs with
    | [] => exact Iff.rfl
    | [⟨_, ⟨sx, _⟩⟩] | ⟨_, ⟨sx, _⟩⟩ :: _ :: _ => cases sx <;> exact Iff.rfl

namespace Formula

variable {σ : Type} {g : Graph}

/-- Places do not matter to what a formula says. -/
theorem satisfied_bare (φ : Formula σ) (ν : Valuation) :
    φ.bare.Satisfied g ν ↔ φ.Satisfied g ν := by
  induction φ generalizing ν with
  | quantified p q x φ ih =>
    obtain ⟨pq, q⟩ := q
    obtain ⟨px, ⟨sort, name⟩⟩ := x
    cases sort with
    | element =>
      cases q with
      | existential => exact exists_congr fun i => and_congr_right fun _ => ih _
      | universal => exact forall_congr' fun i => imp_congr_right fun _ => ih _
    | set =>
      cases q with
      | existential => exact exists_congr fun S => and_congr_right fun _ => ih _
      | universal => exact forall_congr' fun S => imp_congr_right fun _ => ih _
  | binary p c φ ψ ihφ ihψ => exact satisfied_binary_congr rfl (ihφ ν) (ihψ ν)
  | negation p sign φ ih => exact not_congr (ih ν)
  | comparison p o x y =>
    obtain ⟨po, o⟩ := o
    cases o <;> exact Iff.rfl
  | relation p r xs => exact Valuation.relates_mapPlace (fun _ => ()) r.value xs

end Formula

variable {source : String} {φ : Formula Span} {g : Graph}

/-- **Outcomes are truth values.** -/
theorem run_decides (hg : g.WellFormed) (hsize : g.vertexCount ≤ VertexSet.idLimit)
    (hφ : parse source = .ok φ) (hvalid : φ.analyze.valid = true) (ν : Valuation) :
    ∃ o b, run source g = .ok o ∧ o.result = some b ∧ (b = true ↔ φ.bare.Satisfied g ν) := by
  have hclosed := closed_of_valid (spelled_of_parse hφ) hvalid
  have hsorted : φ.WellSorted := wellSorted_of_valid hvalid fun x hx => absurd hx (hclosed x)
  obtain ⟨b, hb, htruth⟩ :=
    verdict_decides hg hsize φ {} hsorted fun x hx => absurd hx (hclosed x)
  have heval : φ.evaluate g = .ok b := by
    unfold Formula.evaluate
    rw [holds_yields g φ {}]
    exact hb
  obtain ⟨o, ho, -, -, ⟨-, b', hb', hresult⟩ | ⟨herrors, -⟩⟩ := run_of_parse_ok hφ g
  · rw [heval] at hb'
    cases hb'
    refine ⟨o, b, ho, hresult, htruth.trans ?_⟩
    rw [Formula.satisfied_bare]
    exact φ.satisfied_congr fun x hx => absurd hx (hclosed x)
  · exact absurd ((valid_iff_errors φ {}).mp hvalid) herrors

/-- The same for a text of which it is known what formula it spells. -/
theorem run_spelled {ψ : Formula Unit} (hg : g.WellFormed)
    (hsize : g.vertexCount ≤ VertexSet.idLimit)
    (hread : (parse source).toOption.map (fun φ => (φ.bare, φ.analyze.valid)) = some (ψ, true))
    (ν : Valuation) :
    ∃ o b, run source g = .ok o ∧ o.result = some b ∧ (b = true ↔ ψ.Satisfied g ν) := by
  cases hφ : parse source with
  | error f =>
    rw [hφ] at hread
    cases hread
  | ok φ =>
    rw [hφ] at hread
    obtain ⟨rfl, hvalid⟩ := Prod.mk.inj (Option.some_inj.mp hread)
    exact run_decides hg hsize hφ hvalid ν

end GraphLogic
