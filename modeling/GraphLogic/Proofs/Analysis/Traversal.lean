import GraphLogic.Analysis.Traversal
import GraphLogic.Proofs.Analysis.Validity
import Mathlib.Data.Finset.Dedup
import Mathlib.Data.Finset.Insert

/-!
# What an analysis finds

Clause by clause, the errors of a formula depend on nothing but the formula and the set of the names
in scope (`Formula.errorsUnder`), and its warnings on the formula alone (`Formula.cautions`).

**Theorem (`traverse_finds`).** From every state, the walk over a formula leaves the scope as it
was, puts just these findings behind those that are there, and answers whether it put an error
there.

The walk and the analysis that is read off the formula find the same (`traverse_eq`), because each
check adds to the state what its clause says (`Traversal.record`). The analysis asks its scope only
whether a name is there, which the set of names answers (`Scope.contains_eq`).
-/

namespace GraphLogic

/-! ## The findings, clause by clause -/

/-- The error of a variable whose name is not among the given ones. -/
def undeclaredUnder (names : Finset String) (x : Placed Span Variable) :
    List (Placed Span SemanticError) :=
  if x.value.name ∈ names then [] else [⟨x.place, .undeclaredVariable x.value.name⟩]

/-- The place of the arguments of a relation; that of the whole predicate if there are none. -/
def argumentsPlace (place : Span) (xs : List (Placed Span Variable)) : Span :=
  match xs.head?, xs.getLast? with
  | some first, some last => first.place.cover last.place
  | _, _ => place

namespace Formula

/-- The errors of a formula where the given names are in scope. -/
def errorsUnder (names : Finset String) : Formula Span → List (Placed Span SemanticError)
  | quantified _ _ x φ =>
    (if x.value.name ∈ names then [⟨x.place, .duplicateVariable x.value.name⟩] else []) ++
      φ.errorsUnder (insert x.value.name names)
  | binary _ _ φ ψ => φ.errorsUnder names ++ ψ.errorsUnder names
  | negation _ _ φ => φ.errorsUnder names
  | comparison p _ x y =>
    undeclaredUnder names x ++
      if x.value.name = y.value.name then []
      else undeclaredUnder names y ++
        if x.value.sort = y.value.sort then [] else [⟨p, .sortMismatch x.value y.value⟩]
  | relation p r xs =>
    (match r.value with
      | .edge => []
      | .set name =>
        if name ∈ names then [] else [⟨r.place, .undeclaredVariable name⟩]) ++
    (if xs.length = r.value.arity then []
      else [⟨argumentsPlace p xs, .arityMismatch r.value xs.length⟩]) ++
    xs.flatMap fun x =>
      (if x.value.sort = .set then [⟨x.place, .setArgument r.value x.value.name⟩] else []) ++
        undeclaredUnder names x

/-- The names that the predicates of a formula mention, those of relations included. -/
def mentions : Formula Span → List String
  | quantified _ _ _ φ => φ.mentions
  | binary _ _ φ ψ => φ.mentions ++ ψ.mentions
  | negation _ _ φ => φ.mentions
  | comparison _ _ x y => [x.value.name, y.value.name]
  | relation _ r xs => r.value.name :: xs.map (·.value.name)

/-- The warnings of a formula. -/
def cautions : Formula Span → List (Placed Span SemanticWarning)
  | quantified _ _ x φ =>
    φ.cautions ++
      if x.value.name ∈ φ.mentions then [] else [⟨x.place, .unusedVariable x.value.name⟩]
  | binary _ _ φ ψ => φ.cautions ++ ψ.cautions
  | negation _ _ φ => φ.cautions
  | comparison p o x y =>
    if x.value.name = y.value.name then
      match o.value with
      | .equal => [⟨p, .alwaysTrue x.value.name⟩]
      | .unequal => [⟨p, .alwaysFalse x.value.name⟩]
    else []
  | relation p r xs =>
    match r.value, xs with
    | .edge, [x, y] => if x.value.name = y.value.name then [⟨p, .selfLoop x.value.name⟩] else []
    | _, _ => []

end Formula

/-! ## The scope as a set of names -/

namespace Scope

def names (s : Scope) : Finset String := (s.bound.map (·.name)).toFinset

theorem names_push (s : Scope) (x : Variable) : (s.push x).names = insert x.name s.names :=
  List.toFinset_cons

theorem contains_eq (s : Scope) (name : String) : s.contains name = decide (name ∈ s.names) := by
  rw [Bool.eq_iff_iff, decide_eq_true_iff]
  unfold contains lookup names
  simp

theorem undeclared_eq (s : Scope) (x : Placed Span Variable) :
    s.undeclared x = undeclaredUnder s.names x := by
  unfold undeclared undeclaredUnder
  rw [contains_eq]
  simp only [decide_eq_true_eq]

theorem argument_eq (s : Scope) (r : Relation) (x : Placed Span Variable) :
    s.argument r x =
      (if x.value.sort = .set then [⟨x.place, .setArgument r x.value.name⟩] else []) ++
        undeclaredUnder s.names x := by
  rw [argument, undeclared_eq]
  cases x.value.sort <;> rfl

end Scope

theorem errors_analyzeIn (φ : Formula Span) (s : Scope) :
    (φ.analyzeIn s).errors = φ.errorsUnder s.names := by
  induction φ generalizing s with
  | quantified p q x φ ih =>
    rw [Formula.analyzeIn, Formula.errorsUnder, ← Scope.names_push, ← ih, Scope.contains_eq]
    simp only [decide_eq_true_eq]
  | binary p c φ ψ ihφ ihψ =>
    rw [Formula.errorsUnder, ← ihφ, ← ihψ]
    rfl
  | negation p sign φ ih => exact ih s
  | comparison p o x y =>
    rw [Formula.analyzeIn, Formula.errorsUnder, ← Scope.undeclared_eq, ← Scope.undeclared_eq]
    unfold Scope.comparison
    split
    · exact (List.append_nil _).symm
    · exact List.append_assoc ..
  | relation p r xs =>
    refine congrArg₂ (· ++ ·) (congrArg₂ (· ++ ·) ?_ rfl) ?_
    · obtain ⟨pr, r⟩ := r
      cases r with
      | edge => rfl
      | set name => exact s.undeclared_eq ⟨pr, ⟨.set, name⟩⟩
    · exact congrArg (xs.flatMap ·) (funext (s.argument_eq r.value))

theorem mentioned_analyzeIn (φ : Formula Span) (s : Scope) :
    (φ.analyzeIn s).mentioned = φ.mentions := by
  induction φ generalizing s with
  | quantified p q x φ ih => exact ih _
  | binary p c φ ψ ihφ ihψ => exact congrArg₂ (· ++ ·) (ihφ s) (ihψ s)
  | negation p sign φ ih => exact ih s
  | comparison p o x y =>
    unfold Formula.analyzeIn Scope.comparison
    split <;> rfl
  | relation p r xs => rfl

theorem warnings_analyzeIn (φ : Formula Span) (s : Scope) :
    (φ.analyzeIn s).warnings = φ.cautions := by
  induction φ generalizing s with
  | quantified p q x φ ih =>
    rw [Formula.analyzeIn, Formula.cautions, ← ih (s.push x.value),
      ← mentioned_analyzeIn φ (s.push x.value)]
  | binary p c φ ψ ihφ ihψ => exact congrArg₂ (· ++ ·) (ihφ s) (ihψ s)
  | negation p sign φ ih => exact ih s
  | comparison p o x y =>
    unfold Formula.analyzeIn Formula.cautions Scope.comparison
    split
    · cases o.value <;> rfl
    · rfl
  | relation p r xs => rfl

theorem analyzeIn_eq (φ : Formula Span) (s : Scope) :
    φ.analyzeIn s =
      { errors := φ.errorsUnder s.names
        warnings := φ.cautions
        mentioned := φ.mentions
        valid := decide (φ.errorsUnder s.names = []) } := by
  have hvalid : (φ.analyzeIn s).valid = decide (φ.errorsUnder s.names = []) := by
    rw [Bool.eq_iff_iff, decide_eq_true_iff, ← errors_analyzeIn]
    exact valid_iff_errors φ s
  rw [← hvalid, ← errors_analyzeIn, ← warnings_analyzeIn φ s, ← mentioned_analyzeIn φ s]

/-! ## The walk -/

/-- The state with what was found put behind what is there. -/
def Traversal.record (t : Traversal) (a : Analysis) : Traversal :=
  { t with
    mentioned := t.mentioned ++ a.mentioned
    errors := t.errors ++ a.errors
    warnings := t.warnings ++ a.warnings }

theorem Traversal.record_append (t : Traversal) (a b : Analysis) :
    (t.record a).record b = t.record (a ++ b) := by
  simp only [record, List.append_assoc]
  rfl

theorem Traversal.record_congr (t : Traversal) {a b : Analysis} (herrors : a.errors = b.errors)
    (hwarnings : a.warnings = b.warnings) (hmentioned : a.mentioned = b.mentioned) :
    t.record a = t.record b := by
  unfold record
  rw [herrors, hwarnings, hmentioned]

namespace Check

variable {α β : Type} (t : Traversal) (p : Span)

theorem run_bind (m : Check α) (f : α → Check β) :
    (m >>= f).run t = (f (m.run t).1).run (m.run t).2 := rfl

theorem run_pure (a : α) : (pure a : Check α).run t = (a, t) := rfl

theorem run_get : (get : Check Traversal).run t = (t, t) := rfl

theorem run_warn (w : SemanticWarning) :
    (warn p w).run t = ((), t.record { warnings := [⟨p, w⟩] }) := by
  unfold Traversal.record
  rw [List.append_nil, List.append_nil]
  rfl

theorem run_mention (name : String) :
    (mention name).run t = ((), t.record { mentioned := [name] }) := by
  unfold Traversal.record
  rw [List.append_nil, List.append_nil]
  rfl

theorem run_enter (x : Variable) :
    (enter x).run t = ((), { t with scope := t.scope.push x }) := rfl

theorem run_leave :
    leave.run t = ((), { t with scope := (t.scope.pop?.map (·.2)).getD t.scope }) := rfl

theorem run_require (condition : Bool) (e : SemanticError) :
    (require condition p e).run t =
      (condition, t.record { errors := if condition then [] else [⟨p, e⟩] }) := by
  unfold Traversal.record
  cases condition <;> simp [require, report] <;> rfl

theorem run_requireInScope (x : Placed Span Variable) :
    (requireInScope x).run t =
      (t.scope.contains x.value.name, t.record { errors := t.scope.undeclared x }) := by
  unfold requireInScope
  rw [run_bind, run_get, run_require]
  rfl

theorem run_comparison (o : Comparison) (x y : Placed Span Variable) :
    (comparison p o x y).run t =
      ((t.scope.comparison p o x y).valid, t.record (t.scope.comparison p o x y)) := by
  unfold comparison rightOperand Scope.comparison
  by_cases hname : x.value.name = y.value.name
  · simp only [run_bind, run_requireInScope, if_pos hname, run_warn, run_mention, run_pure]
    cases o <;> simp [Traversal.record]
  · simp only [run_bind, run_requireInScope, if_neg hname, run_require, run_mention, run_pure]
    simp [Traversal.record, Bool.and_assoc]

theorem run_arguments (r : Relation) (xs : List (Placed Span Variable)) :
    (arguments r xs).run t =
      (xs.all t.scope.admitsArgument, t.record { errors := xs.flatMap (t.scope.argument r) }) := by
  induction xs generalizing t with
  | nil =>
    unfold arguments
    rw [run_pure]
    simp [Traversal.record]
  | cons x xs ih =>
    simp only [arguments, run_bind, run_require, run_requireInScope, run_pure, ih]
    cases hsort : x.value.sort <;>
      simp [Traversal.record, Scope.argument, Scope.admitsArgument, hsort]

theorem run_forM_mention (xs : List (Placed Span Variable)) :
    (xs.forM fun x => mention x.value.name).run t =
      ((), t.record { mentioned := xs.map (·.value.name) }) := by
  induction xs generalizing t with
  | nil =>
    show ((), t) = _
    simp [Traversal.record]
  | cons x xs ih =>
    show (mention x.value.name >>= fun _ => xs.forM fun x => mention x.value.name).run t = _
    rw [run_bind, run_mention, ih]
    simp [Traversal.record]

theorem run_symbol (r : Placed Span Relation) :
    (symbol r).run t =
      (t.scope.admitsSymbol r.value, t.record { errors :=
        match r.value with
        | .edge => []
        | .set name => t.scope.undeclared ⟨r.place, ⟨.set, name⟩⟩ }) := by
  obtain ⟨pr, r⟩ := r
  cases r with
  | edge =>
    show (true, t) = (true, _)
    simp [Traversal.record]
  | set name => exact run_requireInScope t ⟨pr, ⟨.set, name⟩⟩

theorem run_warnOfLoop (r : Relation) (xs : List (Placed Span Variable)) :
    (warnOfLoop p r xs).run t =
      ((), t.record { warnings :=
        match r, xs with
        | .edge, [x, y] =>
          if x.value.name = y.value.name then [⟨p, .selfLoop x.value.name⟩] else []
        | _, _ => [] }) := by
  have hnone : ((), t) = ((), t.record {}) := by simp [Traversal.record]
  match r, xs with
  | .edge, [x, y] =>
    unfold warnOfLoop
    by_cases hname : x.value.name = y.value.name
    · simp only [if_pos hname]
      exact run_warn t p _
    · simp only [if_neg hname]
      exact hnone
  | .edge, [] | .edge, [_] | .edge, _ :: _ :: _ :: _ | .set _, _ => exact hnone

theorem run_relation (r : Placed Span Relation) (xs : List (Placed Span Variable)) :
    (relation p r xs).run t =
      ((t.scope.relation p r xs).valid, t.record (t.scope.relation p r xs)) := by
  unfold relation
  simp only [run_bind, run_symbol, run_require, run_arguments, run_warnOfLoop, run_mention,
    run_forM_mention, run_pure, Traversal.record_append, beq_iff_eq]
  -- Each check adds to one of the lists only, and nothing to the others.
  refine Prod.ext rfl (Traversal.record_congr t ?_ ?_ ?_)
  · exact (List.append_nil _).trans ((List.append_nil _).trans (List.append_nil _))
  · exact (List.append_nil _).trans (List.append_nil _)
  · rfl

/-- What the body of a quantifier mentions stands behind the mark that was set before it. -/
theorem run_quantified (x : Placed Span Variable) {body : Check Bool} {inner : Analysis}
    (hbody : ∀ t' : Traversal, t'.scope = t.scope.push x.value →
      body.run t' = (inner.valid, t'.record inner)) :
    (quantified x body).run t =
      (!t.scope.contains x.value.name && inner.valid, t.record
        { errors :=
            (if t.scope.contains x.value.name then
              [⟨x.place, .duplicateVariable x.value.name⟩] else []) ++ inner.errors
          warnings := inner.warnings ++
            if x.value.name ∈ inner.mentioned then [] else [⟨x.place, .unusedVariable x.value.name⟩]
          mentioned := inner.mentioned }) := by
  have hleft : ((t.scope.push x.value).pop?.map (·.2)).getD (t.scope.push x.value) = t.scope := rfl
  have hnew (e : Placed Span SemanticError) : (if !t.scope.contains x.value.name then [] else [e]) =
      if t.scope.contains x.value.name then [e] else [] := by
    cases t.scope.contains x.value.name <;> rfl
  unfold quantified
  simp only [run_bind, run_get, run_require, run_enter]
  rw [hbody _ rfl]
  simp only [run_leave, hleft, hnew, Traversal.record, List.append_nil, List.drop_left,
    List.append_assoc]
  by_cases hused : x.value.name ∈ inner.mentioned
  · rw [if_pos hused, List.contains_iff_mem.mpr hused, List.append_nil]
    rfl
  · rw [if_neg hused, Bool.eq_false_iff.mpr (mt List.contains_iff_mem.mp hused)]
    simp only [Bool.not_false, if_true, run_bind, run_warn, run_pure]
    simp only [Traversal.record, List.append_nil, List.append_assoc]

end Check

/-- The walk finds what the analysis finds. -/
theorem traverse_eq (φ : Formula Span) (t : Traversal) :
    φ.traverse.run t =
      ((φ.analyzeIn t.scope).valid, t.record (φ.analyzeIn t.scope)) := by
  induction φ generalizing t with
  | quantified p q x φ ih =>
    refine Check.run_quantified t x fun t' ht' => ?_
    rw [← ht']
    exact ih t'
  | binary p c φ ψ ihφ ihψ =>
    rw [Formula.traverse]
    simp only [Check.run_bind, Check.run_pure, ihφ, ihψ, Traversal.record_append]
    rfl
  | negation p sign φ ih => exact ih t
  | comparison p o x y => exact Check.run_comparison t p o.value x y
  | relation p r xs => exact Check.run_relation t p r xs

/-- **What an analysis finds.** From every state, the walk over a formula leaves the scope as it
was, puts the errors that the formula has under the set of the names in scope behind those that are
there, and its warnings behind the others; and it answers whether it found no error. Started with
nothing, it is the analysis of the formula. -/
theorem traverse_finds (φ : Formula Span) (t : Traversal) :
    φ.traverse.run t =
      (decide (φ.errorsUnder t.scope.names = []),
        { scope := t.scope
          mentioned := t.mentioned ++ φ.mentions
          errors := t.errors ++ φ.errorsUnder t.scope.names
          warnings := t.warnings ++ φ.cautions }) ∧
    φ.traverse.run {} =
      (φ.analyze.valid,
        { mentioned := φ.analyze.mentioned
          errors := φ.analyze.errors
          warnings := φ.analyze.warnings }) := by
  constructor
  · rw [traverse_eq, analyzeIn_eq]
    rfl
  · rw [traverse_eq]
    rfl

end GraphLogic
