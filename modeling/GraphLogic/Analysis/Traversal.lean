import GraphLogic.Analysis

/-!
# Analysis as a traversal

The analysis as it is carried out: one walk over the formula that keeps one scope, the names
mentioned so far and the findings so far. Every check changes this state and answers whether it was
passed.
-/

namespace GraphLogic

/-- The state of a walk over a formula. -/
structure Traversal where
  scope : Scope := {}
  /-- The names that predicates mentioned so far, in order. -/
  mentioned : List String := []
  errors : List (Placed Span SemanticError) := []
  warnings : List (Placed Span SemanticWarning) := []
  deriving DecidableEq, Repr

/-- A step of the walk. -/
abbrev Check (α : Type) := StateM Traversal α

namespace Check

/-! ## Writing to the state -/

def report (place : Span) (e : SemanticError) : Check Unit :=
  modify fun t => { t with errors := t.errors ++ [⟨place, e⟩] }

def warn (place : Span) (w : SemanticWarning) : Check Unit :=
  modify fun t => { t with warnings := t.warnings ++ [⟨place, w⟩] }

def mention (name : String) : Check Unit :=
  modify fun t => { t with mentioned := t.mentioned ++ [name] }

def enter (x : Variable) : Check Unit :=
  modify fun t => { t with scope := t.scope.push x }

def leave : Check Unit :=
  modify fun t => { t with scope := (t.scope.pop?.map (·.2)).getD t.scope }

/-- Answers the condition, and reports the error where it does not hold. -/
def require (condition : Bool) (place : Span) (e : SemanticError) : Check Bool := do
  if !condition then report place e
  return condition

/-! ## The checks -/

def requireInScope (x : Placed Span Variable) : Check Bool := do
  require ((← get).scope.contains x.value.name) x.place (.undeclaredVariable x.value.name)

/-- The variable is used if a predicate that the body added mentions its name. -/
def quantified (x : Placed Span Variable) (body : Check Bool) : Check Bool := do
  let name := x.value.name
  let new ← require (!(← get).scope.contains name) x.place (.duplicateVariable name)
  let mark := (← get).mentioned.length
  enter x.value
  let valid ← body
  leave
  if !((← get).mentioned.drop mark).contains name then warn x.place (.unusedVariable name)
  return new && valid

/-- The checks that the right operand of a comparison needs; one with the name of the left operand
needs none. -/
def rightOperand (place : Span) (o : Comparison) (x y : Placed Span Variable) : Check Bool := do
  if x.value.name = y.value.name then
    warn place <|
      match o with
      | .equal => .alwaysTrue x.value.name
      | .unequal => .alwaysFalse x.value.name
    return true
  else
    let declared ← requireInScope y
    let sorted ← require (x.value.sort == y.value.sort) place (.sortMismatch x.value y.value)
    return declared && sorted

def comparison (place : Span) (o : Comparison) (x y : Placed Span Variable) : Check Bool := do
  let left ← requireInScope x
  let right ← rightOperand place o x y
  mention x.value.name
  mention y.value.name
  return left && right

/-- The checks of the arguments of a relation; each argument is checked, also behind an error. -/
def arguments (r : Relation) : List (Placed Span Variable) → Check Bool
  | [] => return true
  | x :: xs => do
    let element ← require (x.value.sort == .element) x.place (.setArgument r x.value.name)
    let declared ← requireInScope x
    let others ← arguments r xs
    return element && declared && others

/-- The check of the symbol of a relation; adjacency needs none. -/
def symbol (r : Placed Span Relation) : Check Bool :=
  match r.value with
  | .edge => return true
  | .set name => requireInScope ⟨r.place, ⟨.set, name⟩⟩

/-- Warns of adjacency between a variable and itself. -/
def warnOfLoop (place : Span) : Relation → List (Placed Span Variable) → Check Unit
  | .edge, [x, y] =>
    if x.value.name = y.value.name then warn place (.selfLoop x.value.name) else return ()
  | _, _ => return ()

def relation (place : Span) (r : Placed Span Relation) (xs : List (Placed Span Variable)) :
    Check Bool := do
  let declared ← symbol r
  let given := match xs.head?, xs.getLast? with
    | some first, some last => first.place.cover last.place
    | _, _ => place
  let counted ←
    require (xs.length == r.value.arity) given (.arityMismatch r.value xs.length)
  let passed ← arguments r.value xs
  warnOfLoop place r.value xs
  mention r.value.name
  xs.forM fun x => mention x.value.name
  return declared && counted && passed

end Check

/-- Walks over the formula and answers whether it passes every check. -/
def Formula.traverse : Formula Span → Check Bool
  | quantified _ _ x φ => Check.quantified x φ.traverse
  | binary _ _ φ ψ => do
    let left ← φ.traverse
    let right ← ψ.traverse
    return left && right
  | negation _ _ φ => φ.traverse
  | comparison p o x y => Check.comparison p o.value x y
  | relation p r xs => Check.relation p r xs

end GraphLogic
