import GraphLogic.Text.Span
import GraphLogic.Variable

/-!
# Formulas

Formulas of monadic second-order logic over graphs. Every node and every symbol of a formula
carries a place of type `σ`: a span in the text that it was read from, or nothing (`Unit`).
-/

namespace GraphLogic

inductive Quantifier
  | existential
  | universal
  deriving DecidableEq, Repr

inductive Connective
  | and
  | or
  | implies
  | iff
  deriving DecidableEq, Repr

inductive Comparison
  | equal
  | unequal
  deriving DecidableEq, Repr

def Quantifier.sign : Quantifier → String
  | existential => "∃"
  | universal => "∀"

def Connective.sign : Connective → String
  | and => "∧"
  | or => "∨"
  | implies => "→"
  | iff => "↔"

def Comparison.sign : Comparison → String
  | equal => "="
  | unequal => "≠"

inductive Formula (σ : Type)
  /-- `∃x φ`, `∀X φ` -/
  | quantified (place : σ) (quantifier : Placed σ Quantifier) (bound : Placed σ Variable)
      (body : Formula σ)
  /-- `φ ∧ ψ`, `φ ∨ ψ`, `φ → ψ`, `φ ↔ ψ` -/
  | binary (place : σ) (connective : Placed σ Connective) (left right : Formula σ)
  /-- `¬φ`, with the place of its sign -/
  | negation (place : σ) (sign : σ) (inner : Formula σ)
  /-- `x = y`, `X ≠ Y` -/
  | comparison (place : σ) (operator : Placed σ Comparison) (left right : Placed σ Variable)
  /-- `E(x, y)`, `X(x)` -/
  | relation (place : σ) (relation : Placed σ Relation) (arguments : List (Placed σ Variable))
  deriving DecidableEq, Repr

namespace Formula

variable {σ τ : Type}

/-- The place of the outermost node. -/
def place : Formula σ → σ
  | quantified p .. | binary p .. | negation p .. | comparison p .. | relation p .. => p

/-- The same formula with its outermost node at another place. -/
def moveTo (p : σ) : Formula σ → Formula σ
  | quantified _ q x φ => quantified p q x φ
  | binary _ c φ ψ => binary p c φ ψ
  | negation _ s φ => negation p s φ
  | comparison _ o x y => comparison p o x y
  | relation _ r xs => relation p r xs

def mapPlace (f : σ → τ) : Formula σ → Formula τ
  | quantified p q x φ => quantified (f p) (q.mapPlace f) (x.mapPlace f) (φ.mapPlace f)
  | binary p c φ ψ => binary (f p) (c.mapPlace f) (φ.mapPlace f) (ψ.mapPlace f)
  | negation p s φ => negation (f p) (f s) (φ.mapPlace f)
  | comparison p o x y => comparison (f p) (o.mapPlace f) (x.mapPlace f) (y.mapPlace f)
  | relation p r xs => relation (f p) (r.mapPlace f) (xs.map (·.mapPlace f))

/-- The formula without its places. -/
def bare (φ : Formula σ) : Formula Unit := φ.mapPlace fun _ => ()

/-- The number of quantifiers, of both sorts. -/
def quantifierCount : Formula σ → Nat
  | quantified _ _ _ φ => 1 + φ.quantifierCount
  | binary _ _ φ ψ => φ.quantifierCount + ψ.quantifierCount
  | negation _ _ φ => φ.quantifierCount
  | comparison .. | relation .. => 0

end Formula

end GraphLogic
