import GraphLogic.Proofs.Analysis.Validity
import GraphLogic.Proofs.Evaluation.Faults

/-!
# Validity suffices for evaluation

**Theorem (`evaluate_of_valid`).** A valid formula without free variables evaluates on every graph.

That there are none is needed (`evaluate_of_valid_free`). The analysis goes by names, as it may for
formulas that were read from texts, where a name has one sort. In a formula made by hand a binder of
the one sort can have the name of a variable of the other, which then passes for bound; evaluation
keeps the sorts apart and finds no value for it.
-/

namespace GraphLogic

variable {φ : Formula Span} {s : Scope} {a : Assignment}

/-- A valid formula does not fault if its free variables are in scope, with their sorts, and have
values; and it leaves the values as they are. -/
theorem exists_holds_of_valid (hvalid : (φ.analyzeIn s).valid = true)
    (hfree : ∀ x, φ.Free x → s.lookup x.name = some x.sort) (ha : ∀ x, φ.Free x → ¬ a.Lacks x)
    (g : Graph) : ∃ b, (φ.holds g).runOn a = (.ok b, a) := by
  obtain ⟨b, hb⟩ := exists_verdict (g := g) (wellSorted_of_valid hvalid hfree) ha
  exact ⟨b, runOn_of_verdict hb⟩

/-- **Validity suffices for closed formulas.** Variables of different sorts count as different also
when they have the same name. -/
theorem evaluate_of_valid (hvalid : φ.analyze.valid = true) (hclosed : ∀ x, ¬ φ.Free x)
    (g : Graph) : ∃ b, φ.evaluate g = .ok b := by
  obtain ⟨b, hb⟩ := exists_holds_of_valid hvalid (fun x hx => absurd hx (hclosed x))
    (fun x hx => absurd hx (hclosed x)) g
  exact ⟨b, congrArg Prod.fst hb⟩

/-- The names of `∃1 ∀x (x(1) ∨ ¬x(1))` are no names of a text: `1` is an element variable and `x` a
set variable. -/
theorem evaluate_of_valid_unspelled :
    let one : Placed Span Variable := ⟨⟨0, 0⟩, ⟨.element, "1"⟩⟩
    let x : Placed Span Variable := ⟨⟨0, 0⟩, ⟨.set, "x"⟩⟩
    let atom : Formula Span := .relation ⟨0, 0⟩ ⟨⟨0, 0⟩, .set "x"⟩ [one]
    let φ : Formula Span := .quantified ⟨0, 0⟩ ⟨⟨0, 0⟩, .existential⟩ one
      (.quantified ⟨0, 0⟩ ⟨⟨0, 0⟩, .universal⟩ x
        (.binary ⟨0, 0⟩ ⟨⟨0, 0⟩, .or⟩ atom (.negation ⟨0, 0⟩ ⟨0, 0⟩ atom)))
    let g : Graph := { rows := [(⟨"a"⟩, [])] }
    φ.analyze.valid = true ∧ (∀ x, ¬ φ.Free x) ∧ ∃ b, φ.evaluate g = .ok b := by
  intro one x atom φ g
  have hvalid : φ.analyze.valid = true := by decide
  have hclosed : ∀ y, ¬ φ.Free y := by
    rintro y ⟨hone, hx, hatom⟩
    have hy : y = x.value ∨ y = one.value := by
      simpa [atom, Formula.Free, Relation.variable?, eq_comm] using hatom
    rcases hy with hy | hy
    · exact hx hy
    · exact hone hy
  exact ⟨hvalid, hclosed, evaluate_of_valid hvalid hclosed g⟩

/-- In `∀x (x = x)` the binder is an element variable, and `x = x` compares a set variable. The
formula is valid, but on a graph with a vertex the set variable has no value. -/
theorem evaluate_of_valid_free :
    let element : Placed Span Variable := ⟨⟨0, 0⟩, ⟨.element, "x"⟩⟩
    let set : Placed Span Variable := ⟨⟨0, 0⟩, ⟨.set, "x"⟩⟩
    let φ : Formula Span := .quantified ⟨0, 0⟩ ⟨⟨0, 0⟩, .universal⟩ element
      (.comparison ⟨0, 0⟩ ⟨⟨0, 0⟩, .equal⟩ set set)
    let g : Graph := { rows := [(⟨"a"⟩, [])] }
    φ.analyze.valid = true ∧ φ.evaluate g = .error (.unassigned ⟨.set, "x"⟩) := by
  exact ⟨by decide, by rfl⟩

end GraphLogic
