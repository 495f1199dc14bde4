import GraphLogic.Proofs.Analysis.Sufficiency
import GraphLogic.Pipeline

/-!
# Behind the analysis nothing faults

**Theorem (`run_faultless`).** A source text that can be read has an outcome on every graph: the
verdict if the analysis found no error, and none otherwise. The only failures are those of reading
the text.

A valid formula that was read has no free variables, because spelling fixes the sorts of its names;
and a valid formula without free variables evaluates.
-/

namespace GraphLogic

variable {source : String} {φ : Formula Span}

theorem parse_ne_evaluation (source : String) (fault : EvaluationFault) :
    parse source ≠ .error (.evaluation fault) := by
  intro h
  rcases parse_error_cases h with ⟨_, heq, -⟩ | ⟨_, _, heq, -⟩ <;> cases heq

/-- A valid formula that was read evaluates on every graph. -/
theorem exists_evaluate (hφ : parse source = .ok φ) (hvalid : φ.analyze.valid = true)
    (g : Graph) : ∃ b, φ.evaluate g = .ok b := by
  have hclosed := closed_of_valid (spelled_of_parse hφ) hvalid
  obtain ⟨b, hb⟩ := exists_holds_of_valid hvalid (fun x hx => absurd hx (hclosed x))
    (fun x hx => absurd hx (hclosed x)) g
  exact ⟨b, congrArg Prod.fst hb⟩

theorem run_of_parse_error {f : Failure} (h : parse source = .error f) (g : Graph) :
    run source g = .error f := by
  unfold run
  rw [h]
  rfl

theorem run_of_parse_ok (h : parse source = .ok φ) (g : Graph) :
    ∃ o, run source g = .ok o ∧ o.formula = φ ∧ o.analysis = φ.analyze ∧
      ((φ.analyze.errors = [] ∧ ∃ b, φ.evaluate g = .ok b ∧ o.result = some b) ∨
        φ.analyze.errors ≠ [] ∧ o.result = none) := by
  have hrun : run source g =
      if φ.analyze.isValid then
        (φ.evaluate g).mapError .evaluation >>= fun b =>
          .ok { formula := φ, analysis := φ.analyze, result := some b }
      else .ok { formula := φ, analysis := φ.analyze, result := none } := by
    unfold run
    rw [h]
    rfl
  by_cases hvalid : φ.analyze.valid = true
  · obtain ⟨b, hb⟩ := exists_evaluate h hvalid g
    rw [Analysis.isValid, if_pos hvalid, hb] at hrun
    exact ⟨_, hrun, rfl, rfl, Or.inl ⟨(valid_iff_errors φ {}).mp hvalid, b, hb, rfl⟩⟩
  · rw [Analysis.isValid, if_neg hvalid] at hrun
    exact ⟨_, hrun, rfl, rfl, Or.inr ⟨fun h => hvalid ((valid_iff_errors φ {}).mpr h), rfl⟩⟩

/-- **Behind the analysis nothing faults.** For every source text and every graph: a run fails
just when the text cannot be read, with the same failure, which is none of evaluation. If the text
can be read, the outcome has a verdict just when the analysis found no error. -/
theorem run_faultless (source : String) (g : Graph) :
    (∀ f, run source g = .error f ↔ parse source = .error f) ∧
    (∀ fault, run source g ≠ .error (.evaluation fault)) ∧
    ∀ φ, parse source = .ok φ →
      ∃ o, run source g = .ok o ∧ o.formula = φ ∧ o.analysis = φ.analyze ∧
        ((φ.analyze.errors = [] ∧ ∃ b, φ.evaluate g = .ok b ∧ o.result = some b) ∨
          φ.analyze.errors ≠ [] ∧ o.result = none) := by
  have herror : ∀ f, run source g = .error f ↔ parse source = .error f := by
    intro f
    constructor
    · intro hrun
      cases h : parse source with
      | error f' =>
        rw [run_of_parse_error h g] at hrun
        cases hrun
        rfl
      | ok φ =>
        obtain ⟨o, ho, -⟩ := run_of_parse_ok h g
        rw [ho] at hrun
        cases hrun
    · intro h
      exact run_of_parse_error h g
  refine ⟨herror, ?_, ?_⟩
  · intro fault hrun
    exact parse_ne_evaluation source fault ((herror _).mp hrun)
  · intro φ h
    exact run_of_parse_ok h g

end GraphLogic
