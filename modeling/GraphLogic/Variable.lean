import GraphLogic.Text.Lowercase

/-!
# Variables and relations

Variables come in two sorts: element variables stand for single vertices, set variables for sets
of vertices. In a source text the spelling of a name fixes its sort.
-/

namespace GraphLogic

inductive VarSort
  | element
  | set
  deriving DecidableEq, Repr

/-- The word for the sort in messages. -/
def VarSort.word : VarSort → String
  | element => "element"
  | set => "set"

structure Variable where
  sort : VarSort
  name : String
  deriving DecidableEq, Repr

/-- The sort that a name has by its spelling: lowercase-initial names stand for vertices. -/
def VarSort.ofName (name : String) : VarSort :=
  match name.toList with
  | [] => .set
  | c :: _ => if isLowercase c then .element else .set

def Variable.ofName (name : String) : Variable := ⟨.ofName name, name⟩

/-- What a predicate can apply to variables: adjacency, or membership in a set variable. -/
inductive Relation
  | edge
  | set (name : String)
  deriving DecidableEq, Repr

namespace Relation

def name : Relation → String
  | edge => "E"
  | set name => name

/-- The number of arguments that the relation takes. -/
def arity : Relation → Nat
  | edge => 2
  | set _ => 1

end Relation

end GraphLogic
