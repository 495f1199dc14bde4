import GraphLogic.Variable

/-!
# Scopes

The variables that are bound at a point of a formula. Names alone decide what is in scope; the
innermost variable of a name hides the others.
-/

namespace GraphLogic

structure Scope where
  /-- Innermost first. -/
  bound : List Variable := []
  deriving DecidableEq, Repr

namespace Scope

def push (s : Scope) (x : Variable) : Scope := ⟨x :: s.bound⟩

/-- The innermost variable and the scope around it. -/
def pop? (s : Scope) : Option (Variable × Scope) :=
  match s.bound with
  | [] => none
  | x :: rest => some (x, ⟨rest⟩)

/-- The sort of the innermost variable called `name`. -/
def lookup (s : Scope) (name : String) : Option VarSort :=
  (s.bound.find? (·.name == name)).map (·.sort)

def contains (s : Scope) (name : String) : Bool := (s.lookup name).isSome

def depth (s : Scope) : Nat := s.bound.length

end Scope

end GraphLogic
