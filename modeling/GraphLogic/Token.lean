import GraphLogic.Formula

/-!
# Tokens

The words and signs of the formula language, without their places.
-/

namespace GraphLogic

inductive Token
  | quantifier (q : Quantifier)
  | connective (c : Connective)
  | negation
  | comparison (o : Comparison)
  /-- The adjacency relation `E`. -/
  | edge
  | var (x : Variable)
  | leftParen
  | rightParen
  | comma
  | endOfInput
  deriving DecidableEq, Repr

namespace Token

/-- The token as it is shown to a reader, with symbols for all signs. -/
def text : Token → String
  | quantifier q => q.sign
  | connective c => c.sign
  | negation => "¬"
  | comparison o => o.sign
  | edge => "E"
  | var x => x.name
  | leftParen => "("
  | rightParen => ")"
  | comma => ","
  | endOfInput => "end of input"

/-- The token that a name stands for. -/
def ofName (name : String) : Token :=
  if name = "E" then edge else var (.ofName name)

/-- The token that a backslash word stands for, if it is a keyword. -/
def ofKeyword? (word : String) : Option Token :=
  match word with
  | "exists" => some (quantifier .existential)
  | "forall" => some (quantifier .universal)
  | "land" => some (connective .and)
  | "lor" => some (connective .or)
  | "implies" => some (connective .implies)
  | "iff" => some (connective .iff)
  | "eq" => some (comparison .equal)
  | "neq" => some (comparison .unequal)
  | "neg" => some negation
  | _ => none

/-- The token that is written as the single character `c`, if there is one. -/
def ofSign? (c : Char) : Option Token :=
  match c with
  | '(' => some leftParen
  | ')' => some rightParen
  | ',' => some comma
  | '=' => some (comparison .equal)
  | '≠' => some (comparison .unequal)
  | '∃' => some (quantifier .existential)
  | '∀' => some (quantifier .universal)
  | '∧' => some (connective .and)
  | '∨' => some (connective .or)
  | '→' => some (connective .implies)
  | '↔' => some (connective .iff)
  | '¬' => some negation
  | _ => none

end Token

end GraphLogic
