import GraphLogic.Formula.Build
import GraphLogic.Proofs.Layout

/-!
# The laws of logic hold of evaluation

**Theorem (`holds_rewrites`).** If one formula becomes another when laws of logic are applied to
parts of it, then evaluation does the same with both: it gives the same answer, or the same fault.

Connectives stop as soon as their left operand decides, and then faults of the right one do not
show; in the same way a quantifier stops at the first value that decides. So the laws are to be
checked for *verdicts*, which are true, false or a fault, and not for truth values. Those that keep
the order of the operands hold: duality of the quantifiers (`verdict_dual`) and of `∧` and `∨`, the
reductions of `→` and `↔`, and double negation. That the operands of `∧` may change places does not.
-/

namespace GraphLogic

open Formula

/-! ## Operations on verdicts -/

variable {ε : Type}

def negated (r : Except ε Bool) : Except ε Bool := do return !(← r)

/-- The verdict on a binary formula, from those on its operands. -/
def Connective.join (c : Connective) (l r : Except ε Bool) : Except ε Bool := do
  let left ← l
  match c with
  | .and => if left then r else return false
  | .or => if left then return true else r
  | .implies => if left then r else return true
  | .iff => return left == (← r)

theorem negated_negated (r : Except ε Bool) : negated (negated r) = r := by
  cases r with
  | error e => rfl
  | ok b => cases b <;> rfl

theorem join_implies (l r : Except ε Bool) :
    Connective.implies.join l r = Connective.or.join (negated l) r := by
  cases l with
  | error e => rfl
  | ok b => cases b <;> rfl

theorem negated_join_and (l r : Except ε Bool) :
    negated (Connective.and.join l r) = Connective.or.join (negated l) (negated r) := by
  cases l with
  | error e => rfl
  | ok b => cases b <;> rfl

theorem negated_join_or (l r : Except ε Bool) :
    negated (Connective.or.join l r) = Connective.and.join (negated l) (negated r) := by
  cases l with
  | error e => rfl
  | ok b => cases b <;> rfl

/-- Where the left operand is false, the right one is looked at by the second implication only. -/
theorem join_iff (l r : Except ε Bool) :
    Connective.iff.join l r =
      Connective.and.join (Connective.implies.join l r) (Connective.implies.join r l) := by
  cases l with
  | error e => rfl
  | ok a =>
    cases r with
    | error e => cases a <;> rfl
    | ok b => cases a <;> cases b <;> rfl

/-- A fault of the right operand shows once the operands change places. -/
example : Connective.and.join (.ok false) (.error ()) ≠
    Connective.and.join (.error ()) (.ok false) := by decide

/-- A search for the first value that decides is one for the first whose negation decides the
opposite. -/
theorem decideAmong_negated {α : Type} (decisive : Bool)
    (trial : α → Except EvaluationFault Bool) (as : List α) :
    negated (decideAmong decisive (fun a => negated (trial a)) as) =
      decideAmong (!decisive) trial as := by
  induction as with
  | nil => rfl
  | cons a as ih =>
    rw [decideAmong, decideAmong, ← ih]
    cases trial a with
    | error e => rfl
    | ok b => cases b <;> cases decisive <;> rfl

/-! ## Verdicts on the formulas in the laws -/

variable {g : Graph} {s : Assignment} {φ ψ φ' ψ' : Formula Unit} {x : Variable}

theorem verdict_negate : (negate φ).verdict g s = negated (φ.verdict g s) := rfl

theorem verdict_connect (c : Connective) :
    (connect c φ ψ).verdict g s = c.join (φ.verdict g s) (ψ.verdict g s) := rfl

/-- A quantifier is the negation of the other one, of the negated formula. -/
theorem verdict_dual {q q' : Quantifier} (hne : q ≠ q') :
    (quantify q x φ).verdict g s = negated ((quantify q' x (negate φ)).verdict g s) := by
  have hdecisive : (q == .existential) = !(q' == .existential) := by
    cases q <;> cases q' <;> first | rfl | exact absurd rfl hne
  obtain ⟨sort, name⟩ := x
  cases sort
  all_goals
    show decideAmong (q == .existential) _ _ = _
    rw [hdecisive]
    exact (decideAmong_negated ..).symm

theorem verdict_quantify_congr (q : Quantifier) (h : ∀ t, φ.verdict g t = ψ.verdict g t) :
    (quantify q x φ).verdict g s = (quantify q x ψ).verdict g s := by
  obtain ⟨sort, name⟩ := x
  cases sort <;> simp only [quantify, verdict, h]

/-! ## Laws -/

/-- The laws, about formulas that need not be well sorted or closed. -/
inductive Formula.Law : Formula Unit → Formula Unit → Prop
  /-- `∀v φ`, `¬∃v ¬φ` -/
  | universal (x : Variable) (φ : Formula Unit) :
    Law (quantify .universal x φ) (negate (quantify .existential x (negate φ)))
  /-- `∃v φ`, `¬∀v ¬φ` -/
  | existential (x : Variable) (φ : Formula Unit) :
    Law (quantify .existential x φ) (negate (quantify .universal x (negate φ)))
  /-- `φ → ψ`, `¬φ ∨ ψ` -/
  | implication (φ ψ : Formula Unit) : Law (connect .implies φ ψ) (connect .or (negate φ) ψ)
  /-- `¬(φ ∧ ψ)`, `¬φ ∨ ¬ψ` -/
  | negatedAnd (φ ψ : Formula Unit) :
    Law (negate (connect .and φ ψ)) (connect .or (negate φ) (negate ψ))
  /-- `¬(φ ∨ ψ)`, `¬φ ∧ ¬ψ` -/
  | negatedOr (φ ψ : Formula Unit) :
    Law (negate (connect .or φ ψ)) (connect .and (negate φ) (negate ψ))
  /-- `φ ↔ ψ`, `(φ → ψ) ∧ (ψ → φ)` -/
  | equivalence (φ ψ : Formula Unit) :
    Law (connect .iff φ ψ) (connect .and (connect .implies φ ψ) (connect .implies ψ φ))
  /-- `¬¬φ`, `φ` -/
  | doubleNegation (φ : Formula Unit) : Law (negate (negate φ)) φ

/-- One formula becomes the other by laws, applied in either direction to parts of it. -/
inductive Formula.Rewrites : Formula Unit → Formula Unit → Prop
  | law {φ ψ : Formula Unit} : Law φ ψ → Rewrites φ ψ
  | refl (φ : Formula Unit) : Rewrites φ φ
  | symm {φ ψ : Formula Unit} : Rewrites φ ψ → Rewrites ψ φ
  | trans {φ ψ χ : Formula Unit} : Rewrites φ ψ → Rewrites ψ χ → Rewrites φ χ
  | quantify (q : Quantifier) (x : Variable) {φ ψ : Formula Unit} :
    Rewrites φ ψ → Rewrites (φ.quantify q x) (ψ.quantify q x)
  | connect (c : Connective) {φ ψ φ' ψ' : Formula Unit} :
    Rewrites φ φ' → Rewrites ψ ψ' → Rewrites (φ.connect c ψ) (φ'.connect c ψ')
  | negate {φ ψ : Formula Unit} : Rewrites φ ψ → Rewrites φ.negate ψ.negate

theorem Formula.Law.verdict_eq (h : Law φ ψ) : φ.verdict g s = ψ.verdict g s := by
  cases h with
  | universal x φ => exact verdict_dual Quantifier.noConfusion
  | existential x φ => exact verdict_dual Quantifier.noConfusion
  | implication φ ψ => exact join_implies _ _
  | negatedAnd φ ψ => exact negated_join_and _ _
  | negatedOr φ ψ => exact negated_join_or _ _
  | equivalence φ ψ => exact join_iff _ _
  | doubleNegation φ => exact negated_negated _

theorem Formula.Rewrites.verdict_eq (h : Rewrites φ ψ) : φ.verdict g s = ψ.verdict g s := by
  induction h generalizing s with
  | law h => exact h.verdict_eq
  | refl φ => rfl
  | symm _ ih => exact ih.symm
  | trans _ _ ih ih' => exact ih.trans ih'
  | quantify q x _ ih => exact verdict_quantify_congr q fun t => ih
  | connect c _ _ ih ih' => rw [verdict_connect, verdict_connect, ih, ih']
  | negate _ ih => rw [verdict_negate, verdict_negate, ih]

/-- **The laws of logic hold of evaluation**, at any place in a formula, with faults and the
assignment that is left behind. -/
theorem holds_rewrites {σ τ : Type} {φ : Formula σ} {ψ : Formula τ} (h : φ.bare.Rewrites ψ.bare)
    (g : Graph) (s : Assignment) : (φ.holds g).runOn s = (ψ.holds g).runOn s := by
  have hφ : φ.bare.holds g = φ.holds g := holds_mapPlace g _ φ
  have hψ : ψ.bare.holds g = ψ.holds g := holds_mapPlace g _ ψ
  rw [← hφ, ← hψ, runOn_of_verdict h.verdict_eq, runOn_of_verdict rfl]

/-- `∃x ¬∃Y ¬(Y(x) → x = z)` and `∃x ∀Y (¬Y(x) ∨ x = z)`, where `z` has no value. Both get past the
empty set and fault on the set of the one vertex. -/
theorem holds_rewrites_unassigned :
    let x : Variable := ⟨.element, "x"⟩
    let Y : Variable := ⟨.set, "Y"⟩
    let p := relate (.set "Y") [x]
    let q := compare .equal x ⟨.element, "z"⟩
    let φ := quantify .existential x
      (negate (quantify .existential Y (negate (connect .implies p q))))
    let ψ := quantify .existential x (quantify .universal Y (connect .or (negate p) q))
    let g : Graph := { rows := [(⟨"a"⟩, [])] }
    (φ.holds g).runOn {} = (ψ.holds g).runOn {} ∧
      ((ψ.holds g).runOn {}).1 = .error (.unassigned ⟨.element, "z"⟩) := by
  intro x Y p q φ ψ g
  have himplies : Rewrites (connect .implies p q) (connect .or (negate p) q) :=
    .law (.implication p q)
  have hforall : Rewrites (negate (quantify .existential Y (negate (connect .implies p q))))
      (quantify .universal Y (connect .implies p q)) := .symm (.law (.universal Y _))
  have h : Rewrites φ ψ := .quantify _ x (.trans hforall (.quantify _ Y himplies))
  exact ⟨holds_rewrites (φ := φ) (ψ := ψ) h g {}, by decide +kernel⟩

end GraphLogic
