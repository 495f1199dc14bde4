import GraphLogic.Formula

/-!
# Writing formulas

Formulas are written in two spellings, with symbols or with backslash words. Operands of
connectives and bodies of quantifiers always stand in parentheses.
-/

namespace GraphLogic

inductive Spelling
  /-- `∀`, `→`, `≠` -/
  | symbols
  /-- `\forall`, `\implies`, `\neq` -/
  | words
  deriving DecidableEq, Repr

namespace Spelling

def quantifier : Spelling → Quantifier → String
  | symbols, q => q.sign
  -- The blank keeps the word apart from the variable's name.
  | words, .existential => "\\exists "
  | words, .universal => "\\forall "

def connective : Spelling → Connective → String
  | symbols, c => c.sign
  | words, .and => "\\land"
  | words, .or => "\\lor"
  | words, .implies => "\\implies"
  | words, .iff => "\\iff"

def negation : Spelling → String
  | symbols => "¬"
  | words => "\\neg"

def comparison : Spelling → Comparison → String
  | _, .equal => "="
  | symbols, .unequal => "≠"
  | words, .unequal => "\\neq"

end Spelling

/-- The formula as source text. -/
def Formula.write {σ : Type} (s : Spelling) : Formula σ → String
  | quantified _ q x φ => s.quantifier q.value ++ x.value.name ++ "(" ++ φ.write s ++ ")"
  | binary _ c φ ψ => "(" ++ φ.write s ++ ") " ++ s.connective c.value ++ " (" ++ ψ.write s ++ ")"
  | negation _ _ φ => s.negation ++ "(" ++ φ.write s ++ ")"
  | comparison _ o x y => x.value.name ++ " " ++ s.comparison o.value ++ " " ++ y.value.name
  | relation _ r xs => r.value.name ++ "(" ++ ", ".intercalate (xs.map (·.value.name)) ++ ")"

end GraphLogic
