import GraphLogic.Assignment
import GraphLogic.Formula
import GraphLogic.VertexSet.Subsets

/-!
# Evaluation of formulas

Whether a formula holds in a graph is decided by trying every value of every quantified variable:
the vertices for an element variable, the sets of vertices for a set variable. The values of the
variables live in an assignment that evaluation changes and restores; it can fault, on a variable
without a value or on a predicate that has no meaning.
-/

namespace GraphLogic

inductive EvaluationFault
  | unassigned (x : Variable)
  | sortMismatch (left right : VarSort)
  | arityMismatch (relation : Relation) (found : Nat)
  | notAnElement (relation : Relation) (argument : String)
  deriving DecidableEq, Repr

namespace EvaluationFault

def message : EvaluationFault → String
  | unassigned x => "Unassigned " ++ x.sort.word ++ " variable '" ++ x.name ++ "'"
  | sortMismatch x y =>
    "'=' and '≠' are not supported between " ++ x.word ++ " and " ++ y.word ++ " variables"
  | arityMismatch r found =>
    "'" ++ r.name ++ "' takes " ++ toString r.arity ++ " arguments, but was applied to " ++
      toString found
  | notAnElement r x => "Argument '" ++ x ++ "' for '" ++ r.name ++ "' is not an element variable"

end EvaluationFault

/-- A computation that may fault and may change the assignment, also when it faults. -/
abbrev Evaluation (α : Type) := ExceptT EvaluationFault (StateM Assignment) α

namespace Evaluation

/-- The result of a computation, and the assignment after it. -/
def runOn {α : Type} (m : Evaluation α) (s : Assignment) : Except EvaluationFault α × Assignment :=
  StateT.run (ExceptT.run m) s

/-- The value of an element variable. -/
def element (name : String) : Evaluation VertexId := do
  match (← get).elements.get? name with
  | some i => return i
  | none => throw (.unassigned ⟨.element, name⟩)

/-- The value of a set variable. -/
def set (name : String) : Evaluation VertexSet := do
  match (← get).sets.get? name with
  | some x => return x
  | none => throw (.unassigned ⟨.set, name⟩)

/-- Evaluates `m` under a binding and releases the binding, whether `m` faults or not. -/
def under {α : Type} (bind : Assignment → Binding × Assignment) (m : Evaluation α) :
    Evaluation α := fun s =>
  let (binding, inner) := bind s
  let (result, after) := m inner
  (result, after.release binding)

/-- Tries values in order, up to the first for which `trial` gives `decisive`. -/
def searchList {α : Type} (decisive : Bool) (trial : α → Evaluation Bool) :
    List α → Evaluation Bool
  | [] => return !decisive
  | a :: rest => do
    if (← trial a) == decisive then return decisive else searchList decisive trial rest

/-- Tries sets in order, up to the first for which `trial` gives `decisive`. -/
def searchSubsets (decisive : Bool) (trial : VertexSet → Evaluation Bool) (sets : Subsets) :
    Evaluation Bool :=
  match _ : sets.next? with
  | none => return !decisive
  | some (x, rest) => do
    if (← trial x) == decisive then return decisive else searchSubsets decisive trial rest
termination_by sets.remaining
decreasing_by exact Subsets.remaining_next ‹_›

/-- The values of the arguments of a relation. -/
def arguments {σ : Type} (r : Relation) : List (Placed σ Variable) → Evaluation (List VertexId)
  | [] => return []
  | ⟨_, ⟨.element, name⟩⟩ :: rest => do return (← element name) :: (← arguments r rest)
  | ⟨_, ⟨.set, name⟩⟩ :: _ => throw (.notAnElement r name)

/-- Whether two variables have the same value. -/
def equal : Variable → Variable → Evaluation Bool
  | ⟨.element, x⟩, ⟨.element, y⟩ => do return (← element x) == (← element y)
  | ⟨.set, x⟩, ⟨.set, y⟩ => do return (← set x) == (← set y)
  | x, y => throw (.sortMismatch x.sort y.sort)

/-- Whether a relation holds of some vertices. -/
def related (g : Graph) (r : Relation) (ids : List VertexId) : Evaluation Bool :=
  match r, ids with
  | .edge, [i, j] => return g.adjacent i j
  | .set name, [i] => do return (← set name).contains i
  | r, ids => throw (.arityMismatch r ids.length)

end Evaluation

namespace Formula

variable {σ : Type}

open Evaluation

/-- Whether the formula holds in `g`, with the values of its free variables taken from the
assignment. -/
def holds (g : Graph) : Formula σ → Evaluation Bool
  | quantified _ q x φ =>
    -- One witness decides `∃`, one counterexample decides `∀`.
    let decisive := q.value == .existential
    let name := x.value.name
    match x.value.sort with
    | .element =>
      searchList decisive (fun i => under (·.bindElement name i) (φ.holds g))
        (List.range g.vertexCount)
    | .set =>
      searchSubsets decisive (fun s => under (·.bindSet name s) (φ.holds g))
        (.ofSize g.vertexCount)
  | binary _ c φ ψ => do
    let left ← φ.holds g
    match c.value with
    | .and => if left then ψ.holds g else return false
    | .or => if left then return true else ψ.holds g
    | .implies => if left then ψ.holds g else return true
    | .iff => return left == (← ψ.holds g)
  | negation _ _ φ => do return !(← φ.holds g)
  | comparison _ o x y => do
    let equal ← equal x.value y.value
    match o.value with
    | .equal => return equal
    | .unequal => return !equal
  | relation _ r xs => do related g r.value (← arguments r.value xs)

/-- Whether a formula without free variables holds in `g`. -/
def evaluate (φ : Formula σ) (g : Graph) : Except EvaluationFault Bool :=
  ((φ.holds g).runOn {}).1

end Formula

end GraphLogic
