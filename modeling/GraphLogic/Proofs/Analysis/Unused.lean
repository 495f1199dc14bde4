import GraphLogic.Proofs.Analysis.Traversal
import GraphLogic.Proofs.Formula.Phrase.Tree
import GraphLogic.Proofs.Formula.Text

/-!
# Unused variables

**Theorem (`unused_warnings`).** From every state, the walk over a formula warns once of each
quantifier whose variable no predicate of its body mentions, and of no other; but it keeps quiet
about a variable that is called like adjacency and stands around a predicate that applies adjacency.
In a formula that was read from a text there is no such variable.

The warnings of a formula are those that its nodes have by themselves, node by node in the order in
which a walk is done with them (`cautions_eq_flatMap`). A quantifier looks its name up among the
names that its body mentions. These are the names of the variables that are used in it, and the name
of adjacency if it is applied (`mem_mentions_iff`): that the last is no variable is forgotten there
(`unused_warnings_adjacency`).
-/

namespace GraphLogic

variable {φ : Formula Span}

/-! ## Warnings node by node -/

namespace Formula

/-- The formula and the formulas inside it, each behind those inside it. -/
def finished {σ : Type} : Formula σ → List (Formula σ)
  | quantified p q x φ => φ.finished ++ [quantified p q x φ]
  | binary p c φ ψ => φ.finished ++ ψ.finished ++ [binary p c φ ψ]
  | negation p s φ => φ.finished ++ [negation p s φ]
  | comparison p o x y => [comparison p o x y]
  | relation p r xs => [relation p r xs]

/-- The warnings that a node has by itself. -/
def ownCautions : Formula Span → List (Placed Span SemanticWarning)
  | quantified _ _ x φ =>
    if x.value.name ∈ φ.mentions then [] else [⟨x.place, .unusedVariable x.value.name⟩]
  | binary .. | negation .. => []
  | comparison p o x y => (comparison p o x y).cautions
  | relation p r xs => (relation p r xs).cautions

theorem mem_finished {σ : Type} {φ n : Formula σ} : n ∈ φ.finished ↔ n ∈ φ.nodes := by
  induction φ with
  | quantified p q x φ ih => simp [finished, nodes, ih, or_comm]
  | binary p c φ ψ ihφ ihψ => simp [finished, nodes, ihφ, ihψ, or_left_comm, or_comm]
  | negation p sign φ ih => simp [finished, nodes, ih, or_comm]
  | comparison p o x y => rfl
  | relation p r xs => rfl

theorem cautions_eq_flatMap (φ : Formula Span) :
    φ.cautions = φ.finished.flatMap ownCautions := by
  induction φ with
  | quantified p q x φ ih => simp [cautions, finished, ownCautions, ih]
  | binary p c φ ψ ihφ ihψ => simp [cautions, finished, ownCautions, ihφ, ihψ]
  | negation p sign φ ih => simp [cautions, finished, ownCautions, ih]
  | comparison p o x y => simp [finished, ownCautions]
  | relation p r xs => simp [finished, ownCautions]

/-! ## What a body mentions -/

/-- The variables that the predicates mention: operands, arguments, and the set variables that they
apply. Adjacency is none. -/
def usedVariables {σ : Type} : Formula σ → List Variable
  | quantified _ _ _ φ => φ.usedVariables
  | binary _ _ φ ψ => φ.usedVariables ++ ψ.usedVariables
  | negation _ _ φ => φ.usedVariables
  | comparison _ _ x y => [x.value, y.value]
  | relation _ r xs => r.value.variable?.toList ++ xs.map (·.value)

/-- Some predicate of the formula mentions a variable of the name. -/
def Uses {σ : Type} (name : String) (φ : Formula σ) : Prop := ∃ x ∈ φ.usedVariables, x.name = name

instance {σ : Type} (φ : Formula σ) : Decidable (φ.Uses name) :=
  inferInstanceAs (Decidable (∃ x ∈ φ.usedVariables, x.name = name))

/-- Whether some predicate of the formula applies adjacency. -/
def appliesEdge {σ : Type} : Formula σ → Bool
  | quantified _ _ _ φ => φ.appliesEdge
  | binary _ _ φ ψ => φ.appliesEdge || ψ.appliesEdge
  | negation _ _ φ => φ.appliesEdge
  | comparison .. => false
  | relation _ r _ => r.value == .edge

theorem mem_mentions_iff (φ : Formula Span) (name : String) :
    name ∈ φ.mentions ↔ φ.Uses name ∨ name = Relation.edge.name ∧ φ.appliesEdge = true := by
  unfold Uses
  induction φ with
  | quantified p q x φ ih => exact ih
  | binary p c φ ψ ihφ ihψ =>
    simp only [mentions, usedVariables, appliesEdge, List.mem_append, Bool.or_eq_true, ihφ, ihψ,
      or_and_right, exists_or, and_or_left]
    exact or_or_or_comm ..
  | negation p sign φ ih => exact ih
  | comparison p o x y => simp [mentions, usedVariables, appliesEdge, @eq_comm _ name]
  | relation p r xs =>
    obtain ⟨pr, _ | X⟩ := r
    · simp [mentions, usedVariables, appliesEdge, Relation.variable?, or_comm]
    · simp [mentions, usedVariables, appliesEdge, Relation.variable?, Relation.name,
        @eq_comm _ name]

end Formula

/-! ## Warnings of unused variables -/

def SemanticWarning.isUnused : SemanticWarning → Bool
  | unusedVariable _ => true
  | _ => false

namespace Formula

/-- The warning that is due at a node: at a quantifier, that no predicate of its body mentions its
variable. -/
def unusedWarning : Formula Span → List (Placed Span SemanticWarning)
  | quantified _ _ x φ =>
    if φ.Uses x.value.name then [] else [⟨x.place, .unusedVariable x.value.name⟩]
  | _ => []

/-- Whether the node is a quantifier that gives its variable the name of adjacency, around a
predicate that applies adjacency. -/
def bindsEdgeName {σ : Type} : Formula σ → Bool
  | quantified _ _ x φ => x.value.name == Relation.edge.name && φ.appliesEdge
  | _ => false

theorem filter_ownCautions (n : Formula Span) :
    n.ownCautions.filter (·.value.isUnused) = if n.bindsEdgeName then [] else n.unusedWarning := by
  cases n with
  | quantified p q x φ =>
    have hiff := φ.mem_mentions_iff x.value.name
    rw [ownCautions, bindsEdgeName, unusedWarning]
    by_cases hedge : x.value.name = Relation.edge.name ∧ φ.appliesEdge = true
    · rw [if_pos (hiff.mpr (Or.inr hedge))]
      simp [hedge]
    · have hbinds : (x.value.name == Relation.edge.name && φ.appliesEdge) = false := by
        rwa [Bool.eq_false_iff, ne_eq, Bool.and_eq_true, beq_iff_eq]
      rw [or_iff_left hedge] at hiff
      simp only [hiff, hbinds, Bool.false_eq_true, if_false]
      split <;> rfl
  | binary p c φ ψ => rfl
  | negation p sign φ => rfl
  | comparison p o x y =>
    rw [ownCautions, cautions]
    split
    · cases o.value <;> rfl
    · rfl
  | relation p r xs =>
    obtain ⟨pr, _ | X⟩ := r
    · rcases xs with _ | ⟨x, _ | ⟨y, _ | ⟨z, xs⟩⟩⟩
      · rfl
      · rfl
      · show (if x.value.name = y.value.name then [_] else []).filter _ = []
        split <;> rfl
      · rfl
    · rfl

theorem filter_cautions (φ : Formula Span) :
    φ.cautions.filter (·.value.isUnused) =
      φ.finished.flatMap fun n => if n.bindsEdgeName then [] else n.unusedWarning := by
  rw [cautions_eq_flatMap, List.filter_flatMap]
  exact congrArg (φ.finished.flatMap ·) (funext filter_ownCautions)

end Formula

/-! ## Formulas that were read -/

theorem Variable.WellNamed.ne_edge {x : Variable} (h : x.WellNamed) : x.name ≠ Relation.edge.name :=
  (Token.ofName_eq_var_iff.mp (Variable.wellNamed_iff.mp h).2).1

theorem Formula.WellFormed.of_mem_nodes {σ : Type} {φ n : Formula σ} (h : φ.WellFormed)
    (hn : n ∈ φ.nodes) : n.WellFormed := by
  induction φ with
  | quantified p q x φ ih =>
    rcases List.mem_cons.mp hn with rfl | hn
    · exact h
    · exact ih h.2 hn
  | binary p c φ ψ ihφ ihψ =>
    rcases List.mem_cons.mp hn with rfl | hn
    · exact h
    rcases List.mem_append.mp hn with hn | hn
    · exact ihφ h.1 hn
    · exact ihψ h.2 hn
  | negation p sign φ ih =>
    rcases List.mem_cons.mp hn with rfl | hn
    · exact h
    · exact ih h hn
  | comparison p o x y => rwa [List.mem_singleton.mp hn]
  | relation p r xs => rwa [List.mem_singleton.mp hn]

theorem Formula.WellFormed.bindsEdgeName {σ : Type} {n : Formula σ} (h : n.WellFormed) :
    n.bindsEdgeName = false := by
  cases n with
  | quantified p q x φ =>
    have hname : (x.value.name == Relation.edge.name) = false := beq_eq_false_iff_ne.mpr h.1.ne_edge
    rw [Formula.bindsEdgeName, hname, Bool.false_and]
  | _ => rfl

/-- **Unused variables.** From every state, whatever was mentioned before, the walk over a formula
puts one warning of an unused variable behind those that are there for each quantifier whose
variable no predicate of its body mentions, in the order in which it is done with them. Only
quantifiers that give a variable the name of adjacency, around a predicate that applies adjacency,
go without. In a formula that was read from a text there are none of these. -/
theorem unused_warnings (φ : Formula Span) :
    (∀ t : Traversal, (φ.traverse.run t).2.warnings.filter (·.value.isUnused) =
      t.warnings.filter (·.value.isUnused) ++
        φ.finished.flatMap fun n => if n.bindsEdgeName then [] else n.unusedWarning) ∧
    ∀ source, parse source = .ok φ →
      φ.analyze.warnings.filter (·.value.isUnused) = φ.finished.flatMap Formula.unusedWarning := by
  constructor
  · intro t
    rw [traverse_eq, analyzeIn_eq, Traversal.record, List.filter_append, Formula.filter_cautions]
  · intro source h
    have hnode : ∀ n ∈ φ.finished,
        (if n.bindsEdgeName then [] else n.unusedWarning) = n.unusedWarning := by
      intro n hn
      have hn' := (wellFormed_of_parse h).of_mem_nodes (Formula.mem_finished.mp hn)
      rw [hn'.bindsEdgeName, if_neg Bool.false_ne_true]
    rw [Formula.analyze, analyzeIn_eq, Formula.filter_cautions]
    exact List.flatMap_congr hnode

/-- The second `y` of this sentence is not used, though the first, which stands before it, is. -/
theorem unused_warnings_siblings :
    let x : Variable := ⟨.element, "x"⟩
    let y : Variable := ⟨.element, "y"⟩
    let φ : Formula Span := .quantified ⟨0, 28⟩ ⟨⟨0, 1⟩, .universal⟩ ⟨⟨1, 2⟩, x⟩
      (.binary ⟨3, 28⟩ ⟨⟨15, 16⟩, .and⟩
        (.quantified ⟨4, 14⟩ ⟨⟨5, 6⟩, .existential⟩ ⟨⟨6, 7⟩, y⟩
          (.comparison ⟨8, 13⟩ ⟨⟨10, 11⟩, .equal⟩ ⟨⟨8, 9⟩, y⟩ ⟨⟨12, 13⟩, x⟩))
        (.quantified ⟨17, 27⟩ ⟨⟨17, 18⟩, .existential⟩ ⟨⟨18, 19⟩, y⟩
          (.relation ⟨20, 27⟩ ⟨⟨20, 21⟩, .edge⟩ [⟨⟨22, 23⟩, x⟩, ⟨⟨25, 26⟩, x⟩])))
    parse "∀x ((∃y y = x) ∧ ∃y E(x, x))" = .ok φ ∧
      φ.analyze.warnings.filter (·.value.isUnused) = [⟨⟨18, 19⟩, .unusedVariable "y"⟩] := by
  intro x y φ
  have hparse : parse "∀x ((∃y y = x) ∧ ∃y E(x, x))" = .ok φ := by decide +kernel
  have hdue : φ.finished.flatMap Formula.unusedWarning = [⟨⟨18, 19⟩, .unusedVariable "y"⟩] := by
    decide
  exact ⟨hparse, ((unused_warnings φ).2 _ hparse).trans hdue⟩

/-- In `∀x ∀y ∃E E(x, y)` the set variable `E` is mentioned by no predicate, and yet there is no
warning: adjacency has its name. -/
theorem unused_warnings_adjacency :
    let x : Placed Span Variable := ⟨⟨1, 2⟩, ⟨.element, "x"⟩⟩
    let y : Placed Span Variable := ⟨⟨11, 12⟩, ⟨.element, "y"⟩⟩
    let E : Placed Span Variable := ⟨⟨21, 22⟩, ⟨.set, "E"⟩⟩
    let φ : Formula Span := .quantified ⟨0, 9⟩ ⟨⟨0, 1⟩, .universal⟩ x
      (.quantified ⟨10, 19⟩ ⟨⟨10, 11⟩, .universal⟩ y
        (.quantified ⟨20, 29⟩ ⟨⟨20, 21⟩, .existential⟩ E
          (.relation ⟨30, 39⟩ ⟨⟨30, 31⟩, .edge⟩ [⟨⟨31, 32⟩, x.value⟩, ⟨⟨32, 33⟩, y.value⟩])))
    φ.finished.flatMap Formula.unusedWarning = [⟨⟨21, 22⟩, .unusedVariable "E"⟩] ∧
      φ.analyze.warnings = [] := by
  decide

end GraphLogic
