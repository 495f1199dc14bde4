import GraphLogic.Assignment.Bindings
import GraphLogic.Proofs.Evaluation.Verdict

/-!
# Bindings nest

**Theorem (`bindings_nest`).** Whatever bindings were made and released, a name has the value of the
innermost binding of it that is in force in its sort, and without one the value that it had in the
beginning, if any; and once all bindings are released, the assignment is the one of the beginning.

A binding remembers only what it displaced itself. That this is enough follows from one law: making
a binding and releasing it changes nothing (`step_release_bind`). So what is left after any steps
could as well have been made by the bindings in force alone (`Nested`), and these are read off from
the innermost one on.
-/

namespace GraphLogic

/-- A value, or the fault that the variable has none. -/
def assigned {α : Type} (x : Variable) : Option α → Except EvaluationFault α
  | some a => .ok a
  | none => .error (.unassigned x)

namespace Meaning

/-- The value for an element variable of this name. -/
def element? (name : String) : Meaning → Option VertexId
  | element other i => if other = name then some i else none
  | set _ _ => none

/-- The value for a set variable of this name. -/
def set? (name : String) : Meaning → Option VertexSet
  | element _ _ => none
  | set other x => if other = name then some x else none

end Meaning

namespace Bindings

variable {s : Assignment} {b : Bindings} {m : Meaning} {ms : List Meaning} {name : String}

/-! ## What is in force -/

/-- The meanings in force after a step, the innermost first, where those before it are given. -/
def force (ms : List Meaning) : Step → List Meaning
  | .bind m => m :: ms
  | .release => ms.tail

/-- The meanings in force after some steps, the innermost first. -/
def inForce (steps : List Step) : List Meaning := steps.foldl force []

/-- The meanings were bound one inside of the other, from the assignment `s` on. -/
inductive Nested (s : Assignment) : List Meaning → Bindings → Prop
  | start : Nested s [] { assignment := s }
  | bind {ms : List Meaning} {b : Bindings} (m : Meaning) :
      Nested s ms b → Nested s (m :: ms) (b.step (.bind m))

/-! ## One step -/

theorem step_release_bind (b : Bindings) (m : Meaning) :
    (b.step (.bind m)).step .release = b := by
  show Bindings.mk ((b.assignment.bind m).2.release (b.assignment.bind m).1) b.live = b
  rw [Assignment.release_bind]

theorem Nested.step (h : Nested s ms b) (st : Step) : Nested s (force ms st) (b.step st) := by
  cases st with
  | bind m => exact h.bind m
  | release =>
    cases h with
    | start => exact .start
    | bind m h =>
      rw [step_release_bind]
      exact h

/-! ## Step after step -/

theorem Nested.run (h : Nested s ms b) (steps : List Step) :
    Nested s (steps.foldl force ms) (b.run steps) := by
  induction steps generalizing ms b with
  | nil => exact h
  | cons st steps ih => exact ih (h.step st)

theorem nested_run (s : Assignment) (steps : List Step) :
    Nested s (inForce steps) (run { assignment := s } steps) := Nested.start.run steps

/-- Releasing all bindings in force leads back to the beginning. -/
theorem Nested.run_release (h : Nested s ms b) :
    b.run (List.replicate ms.length .release) = { assignment := s } := by
  induction h with
  | start => rfl
  | @bind ms b m _ ih =>
    show ((b.step (.bind m)).step .release).run (List.replicate ms.length .release) = _
    rw [step_release_bind, ih]

/-! ## Values -/

theorem Nested.get?_elements (h : Nested s ms b) (name : String) :
    b.assignment.elements.get? name =
      (ms.findSome? (·.element? name)).or (s.elements.get? name) := by
  induction h with
  | start => rfl
  | @bind ms b m _ ih =>
    cases m with
    | element other i =>
      refine (Values.get?_put b.assignment.elements other name i).trans ?_
      rw [List.findSome?_cons, Meaning.element?, ih]
      split <;> rfl
    | set other x => exact ih

theorem Nested.get?_sets (h : Nested s ms b) (name : String) :
    b.assignment.sets.get? name = (ms.findSome? (·.set? name)).or (s.sets.get? name) := by
  induction h with
  | start => rfl
  | @bind ms b m _ ih =>
    cases m with
    | element other i => exact ih
    | set other x =>
      refine (Values.get?_put b.assignment.sets other name x).trans ?_
      rw [List.findSome?_cons, Meaning.set?, ih]
      split <;> rfl

theorem runOn_element (name : String) (t : Assignment) :
    (Evaluation.element name).runOn t = (assigned ⟨.element, name⟩ (t.elements.get? name), t) := by
  refine (Evaluation.element_yields name t).trans ?_
  unfold Assignment.elementValue assigned
  cases t.elements.get? name <;> rfl

theorem runOn_set (name : String) (t : Assignment) :
    (Evaluation.set name).runOn t = (assigned ⟨.set, name⟩ (t.sets.get? name), t) := by
  refine (Evaluation.set_yields name t).trans ?_
  unfold Assignment.setValue assigned
  cases t.sets.get? name <;> rfl

/-- **Bindings nest.** For every assignment and all steps that make bindings, of any names in any
sorts, and release the innermost one in force: afterwards every name has, in each sort, the value of
the innermost binding of it that is in force in this sort; without one, the value that it had in the
assignment; and without that it is unassigned. If all bindings in force are released then, none is
left, and the assignment is what it was. -/
theorem bindings_nest (s : Assignment) (steps : List Step) :
    (∀ name, (Evaluation.element name).runOn (run { assignment := s } steps).assignment =
      (assigned ⟨.element, name⟩
          (((inForce steps).findSome? (·.element? name)).or (s.elements.get? name)),
        (run { assignment := s } steps).assignment)) ∧
    (∀ name, (Evaluation.set name).runOn (run { assignment := s } steps).assignment =
      (assigned ⟨.set, name⟩ (((inForce steps).findSome? (·.set? name)).or (s.sets.get? name)),
        (run { assignment := s } steps).assignment)) ∧
    run { assignment := s } (steps ++ List.replicate (inForce steps).length .release) =
      { assignment := s } := by
  have hnested := nested_run s steps
  refine ⟨?_, ?_, ?_⟩
  · intro name
    rw [runOn_element, hnested.get?_elements]
  · intro name
    rw [runOn_set, hnested.get?_sets]
  · rw [run, List.foldl_append]
    exact hnested.run_release

/-- A name in both sorts, with the innermost binding of it already released. -/
example :
    let steps : List Step :=
      [.bind (.element "x" 1), .bind (.set "x" .empty), .bind (.element "x" 2), .release]
    let t := (run { assignment := { elements := ⟨[("x", 7)]⟩ } } steps).assignment
    (Evaluation.element "x").runOn t = (.ok 1, t) ∧ (Evaluation.set "x").runOn t = (.ok .empty, t) ∧
      (Evaluation.set "y").runOn t = (.error (.unassigned ⟨.set, "y"⟩), t) := ⟨rfl, rfl, rfl⟩

end Bindings

end GraphLogic
