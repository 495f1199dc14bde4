import GraphLogic.Analysis.Finding
import GraphLogic.Diagnostic
import GraphLogic.Formula
import GraphLogic.Scope

/-!
# Analysis of formulas

The analysis checks scopes, sorts and arities. It looks at every part of a formula, also behind an
error, and depends on nothing but the formula and the names in scope. Every check also votes on
whether the formula is valid, that is, can be evaluated.
-/

namespace GraphLogic

/-- What was found in a formula, each list in the order of the text. -/
structure Analysis where
  errors : List (Placed Span SemanticError) := []
  warnings : List (Placed Span SemanticWarning) := []
  /-- The names that the predicates mention, those of the relations included. -/
  mentioned : List String := []
  /-- Whether every check was passed. -/
  valid : Bool := true
  deriving DecidableEq, Repr

namespace Analysis

protected def append (a b : Analysis) : Analysis where
  errors := a.errors ++ b.errors
  warnings := a.warnings ++ b.warnings
  mentioned := a.mentioned ++ b.mentioned
  valid := a.valid && b.valid

instance : Append Analysis := ⟨Analysis.append⟩

/-- Whether the formula can be evaluated. -/
def isValid (a : Analysis) : Bool := a.valid

/-- The errors, then the warnings. -/
def diagnostics (a : Analysis) : List Diagnostic :=
  a.errors.map (fun e => ⟨.error, e.value.message, e.place⟩) ++
    a.warnings.map (fun w => ⟨.warning, w.value.message, w.place⟩)

end Analysis

namespace Scope

/-- The error of a variable that is not in scope. -/
def undeclared (s : Scope) (x : Placed Span Variable) : List (Placed Span SemanticError) :=
  if s.contains x.value.name then [] else [⟨x.place, .undeclaredVariable x.value.name⟩]

/-- The analysis of a comparison at `place`. A variable compared with itself needs no second
look. -/
def comparison (s : Scope) (place : Span) (o : Comparison) (x y : Placed Span Variable) :
    Analysis :=
  if x.value.name = y.value.name then
    { errors := s.undeclared x
      warnings := [⟨place,
        match o with
        | .equal => .alwaysTrue x.value.name
        | .unequal => .alwaysFalse x.value.name⟩]
      mentioned := [x.value.name, y.value.name]
      valid := s.contains x.value.name }
  else
    { errors := s.undeclared x ++ s.undeclared y ++
        if x.value.sort = y.value.sort then [] else [⟨place, .sortMismatch x.value y.value⟩]
      mentioned := [x.value.name, y.value.name]
      valid := s.contains x.value.name && s.contains y.value.name &&
        x.value.sort == y.value.sort }

/-- The errors of one argument of a relation. -/
def argument (s : Scope) (r : Relation) (x : Placed Span Variable) :
    List (Placed Span SemanticError) :=
  (match x.value.sort with
    | .element => []
    | .set => [⟨x.place, .setArgument r x.value.name⟩]) ++ s.undeclared x

/-- Whether an argument of a relation passes both checks. -/
def admitsArgument (s : Scope) (x : Placed Span Variable) : Bool :=
  x.value.sort == .element && s.contains x.value.name

/-- Whether the symbol of a relation is in scope; adjacency always is. -/
def admitsSymbol (s : Scope) : Relation → Bool
  | .edge => true
  | .set name => s.contains name

/-- The analysis of a relation at `place`. -/
def relation (s : Scope) (place : Span) (r : Placed Span Relation)
    (xs : List (Placed Span Variable)) : Analysis :=
  let symbol := match r.value with
    | .edge => []
    | .set name => s.undeclared ⟨r.place, ⟨.set, name⟩⟩
  let given := match xs.head?, xs.getLast? with
    | some first, some last => first.place.cover last.place
    | _, _ => place
  let arity :=
    if xs.length = r.value.arity then [] else [⟨given, .arityMismatch r.value xs.length⟩]
  { errors := symbol ++ arity ++ xs.flatMap (s.argument r.value)
    warnings := match r.value, xs with
      | .edge, [x, y] =>
        if x.value.name = y.value.name then [⟨place, .selfLoop x.value.name⟩] else []
      | _, _ => []
    mentioned := r.value.name :: xs.map (·.value.name)
    valid := s.admitsSymbol r.value && xs.length == r.value.arity && xs.all s.admitsArgument }

end Scope

/-- The analysis of a formula inside a scope. -/
def Formula.analyzeIn (s : Scope) : Formula Span → Analysis
  | quantified _ _ x φ =>
    let inner := φ.analyzeIn (s.push x.value)
    { errors :=
        (if s.contains x.value.name then [⟨x.place, .duplicateVariable x.value.name⟩] else []) ++
          inner.errors
      warnings := inner.warnings ++
        if x.value.name ∈ inner.mentioned then [] else [⟨x.place, .unusedVariable x.value.name⟩]
      mentioned := inner.mentioned
      valid := !s.contains x.value.name && inner.valid }
  | binary _ _ φ ψ => φ.analyzeIn s ++ ψ.analyzeIn s
  | negation _ _ φ => φ.analyzeIn s
  | comparison p o x y => s.comparison p o.value x y
  | relation p r xs => s.relation p r xs

/-- The analysis of a whole formula. -/
def Formula.analyze (φ : Formula Span) : Analysis := φ.analyzeIn {}

end GraphLogic
