import GraphLogic.Formula.Reading
import GraphLogic.Token.Parse

/-!
# Reading formulas by ordered choice

The grammar of formulas written down as a parser: at each place the alternatives are tried in
order, each as far as it goes.
-/

namespace GraphLogic

/-- The variable that a token is. -/
def Token.variable? : Token → Option Variable
  | var x => some x
  | _ => none

/-- The relation that a set variable stands for. -/
def Token.setRelation? : Token → Option Relation
  | var ⟨.set, name⟩ => some (.set name)
  | _ => none

namespace Grammar

open Parse

def anyVariable : Parse (Placed Span Variable) :=
  located (select (.var ⟨.element, ""⟩) Token.variable?)

def arguments : Parse (List (Placed Span Variable)) :=
  between .leftParen .rightParen (separated anyVariable .comma)

def quantifier : Parse (Placed Span Quantifier) :=
  located (oneOf .quantifier [.existential, .universal])

def connective : Parse (Placed Span Connective) :=
  located (oneOf .connective [.and, .or, .implies, .iff])

def operator : Parse (Placed Span Comparison) :=
  located (oneOf .comparison [.equal, .unequal])

/-- A relation and its arguments; how many there are is checked later. -/
def applied (relation : Parse (Placed Span Relation)) : Parse (Span → Formula Span) := do
  let s ← relation
  let xs ← arguments
  return fun place => .relation place s xs

/-- `E(x, y)` -/
def edge : Parse (Span → Formula Span) := applied (located (just .edge .edge))

/-- `X(x)` -/
def membership : Parse (Span → Formula Span) :=
  applied (located (select (.var ⟨.element, ""⟩) Token.setRelation?))

/-- `x = y`, `X ≠ Y` -/
def comparison : Parse (Span → Formula Span) := do
  let x ← anyVariable
  let o ← operator
  let y ← anyVariable
  return fun place => .comparison place o x y

def predicate : Parse (Formula Span) :=
  (edge <|> membership <|> comparison).mapWithSpan fun φ place => φ place

section

variable (formula : Parse (Formula Span))

/-- A formula in parentheses is moved out to them. -/
def parenthesized : Parse (Formula Span) :=
  (between .leftParen .rightParen formula).mapWithSpan fun φ place => φ.moveTo place

def atom : Parse (Formula Span) := predicate <|> parenthesized formula

/-- A quantifier, its variable and its body. -/
def bound (body : Parse (Formula Span)) : Parse (Span → Formula Span) := do
  let q ← quantifier
  let x ← anyVariable
  let φ ← body
  return fun place => .quantified place q x φ

/-- `∀x∃y φ`, where the body is never a binary formula. -/
def quantified : Parse (Formula Span) :=
  recursive fun body => (bound body).mapWithSpan (fun φ place => φ place) <|> atom formula

def negated (inner : Parse (Formula Span)) : Parse (Span → Formula Span) := do
  let sign ← located (just .negation ())
  let φ ← inner
  return fun place => .negation place sign.place φ

def unary : Parse (Formula Span) :=
  recursive fun inner => (negated inner).mapWithSpan (fun φ place => φ place) <|> quantified formula

/-- A connective and its right operand. -/
def connected : Parse (Placed Span Connective × Formula Span) := do
  let c ← connective
  let φ ← unary formula
  return (c, φ)

/-- Operands with connectives between them, which are all at one level and group to the left. -/
def chain : Parse (Formula Span) := do
  let φ ← unary formula
  let others ← many (connected formula)
  return others.foldl (fun φ (c, ψ) => .binary (φ.place.cover ψ.place) c φ ψ) φ

end

def formula : Parse (Formula Span) := recursive chain

/-- A formula and the end of the input. -/
def whole : Parse (Formula Span) := formula.before .endOfInput

end Grammar

namespace Miss

def foundText (m : Miss) : String :=
  match m.rest.head? with
  | none | some ⟨_, .endOfInput⟩ => "end of input"
  | some t => "'" ++ t.value.text ++ "'"

/-- What was expected in the place of what was found. -/
def message (m : Miss) : String :=
  match ((m.expected.map Token.description).mergeSort fun s t => decide (s ≤ t)).eraseDups with
  | [] => "Unexpected " ++ m.foundText
  | expected =>
    "Expected " ++ SyntaxError.alternatives expected ++ ", but found " ++ m.foundText

end Miss

/-- The formula that the remaining tokens of a cursor spell, or the message of the furthest miss
and its place. -/
def Cursor.choose (c : Cursor) : Except (Placed Span String) (Formula Span) :=
  match Grammar.whole.run c.remaining with
  | .ok a => .ok a.value
  | .error m =>
    let stop := c.last.place.stop
    .error ⟨(m.rest.head?.map (·.place)).getD ⟨stop, stop + 1⟩, m.message⟩

end GraphLogic
