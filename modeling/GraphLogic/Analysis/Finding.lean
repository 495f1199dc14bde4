import GraphLogic.Variable

/-!
# Findings

What the analysis of a formula can find: errors, with which the formula has no meaning, and
warnings about parts that are legal but hardly meant.
-/

namespace GraphLogic

inductive SemanticError
  | duplicateVariable (name : String)
  | undeclaredVariable (name : String)
  | sortMismatch (left right : Variable)
  | arityMismatch (relation : Relation) (found : Nat)
  | setArgument (relation : Relation) (argument : String)
  deriving DecidableEq, Repr

namespace SemanticError

def message : SemanticError → String
  | duplicateVariable name => "Duplicate variable '" ++ name ++ "'"
  | undeclaredVariable name => "Variable '" ++ name ++ "' does not exist"
  | sortMismatch x y =>
    "Cannot compare " ++ x.sort.word ++ " variable '" ++ x.name ++ "' to " ++ y.sort.word ++
      " variable '" ++ y.name ++ "'"
  | arityMismatch r found =>
    let arguments := if r.arity = 1 then " argument for '" else " arguments for '"
    "Expected " ++ toString r.arity ++ arguments ++ r.name ++ "', but found " ++ toString found
  | setArgument r _ => "Argument for '" ++ r.name ++ "' must be element variable, not set variable"

end SemanticError

inductive SemanticWarning
  | unusedVariable (name : String)
  | alwaysTrue (name : String)
  | alwaysFalse (name : String)
  | selfLoop (name : String)
  deriving DecidableEq, Repr

namespace SemanticWarning

def message : SemanticWarning → String
  | unusedVariable name => "Variable '" ++ name ++ "' is never used"
  | alwaysTrue name => "'" ++ name ++ " = " ++ name ++ "' is always true"
  | alwaysFalse name => "'" ++ name ++ " ≠ " ++ name ++ "' is always false"
  | selfLoop name => "'E(" ++ name ++ "," ++ name ++ ")' is always false"

end SemanticWarning

end GraphLogic
