import GraphLogic.Assignment

/-!
# Bindings in force

An assignment in use: bindings are made one inside of the other, and the innermost one in force can
be released.
-/

namespace GraphLogic

/-- A value for a name, in one of the two sorts. -/
inductive Meaning
  | element (name : String) (i : VertexId)
  | set (name : String) (x : VertexSet)
  deriving DecidableEq, Repr

def Assignment.bind (s : Assignment) : Meaning → Binding × Assignment
  | .element name i => s.bindElement name i
  | .set name x => s.bindSet name x

theorem Assignment.release_bind (s : Assignment) (m : Meaning) :
    (s.bind m).2.release (s.bind m).1 = s := by
  cases m with
  | element name i => exact s.release_bindElement name i
  | set name x => exact s.release_bindSet name x

/-- An assignment and the bindings in force on it, the innermost first. -/
structure Bindings where
  assignment : Assignment
  live : List Binding := []
  deriving DecidableEq, Repr

namespace Bindings

inductive Step
  | bind (m : Meaning)
  | release
  deriving DecidableEq, Repr

/-- Where no binding is in force, there is nothing to release. -/
def step (b : Bindings) : Step → Bindings
  | .bind m =>
    let (binding, inner) := b.assignment.bind m
    ⟨inner, binding :: b.live⟩
  | .release =>
    match b.live with
    | [] => b
    | binding :: outer => ⟨b.assignment.release binding, outer⟩

def run (b : Bindings) (steps : List Step) : Bindings := steps.foldl step b

end Bindings

end GraphLogic
