import GraphLogic.Analysis
import GraphLogic.Evaluation
import GraphLogic.Formula.Reading

/-!
# From a source text to a verdict

A source text is cut into tokens, read, analysed and, if it is valid, evaluated.
-/

namespace GraphLogic

/-- Why a source text has no outcome. -/
inductive Failure
  | lexical (fault : Placed Span LexicalFault)
  | syntactic (error : SyntaxError)
  | evaluation (fault : EvaluationFault)
  deriving DecidableEq, Repr

namespace Failure

def message : Failure → String
  | lexical f => "lexical error: " ++ f.value.message
  | syntactic e => "syntax error: " ++ e.message
  | evaluation f => "evaluation error: " ++ f.message

/-- The failure as a diagnostic, where it has a place. -/
def diagnostic? : Failure → Option Diagnostic
  | lexical f => some ⟨.error, f.value.message, f.place⟩
  | syntactic e => some ⟨.error, e.message, e.place⟩
  | evaluation _ => none

end Failure

/-- The formula that a source text spells. -/
def parse (source : String) : Except Failure (Formula Span) := do
  let cursor ← (Cursor.ofSource source).mapError .lexical
  cursor.formula.mapError .syntactic

structure Outcome where
  formula : Formula Span
  analysis : Analysis
  /-- Whether the formula holds; nothing where it is not valid. -/
  result : Option Bool
  deriving DecidableEq, Repr

/-- What becomes of a source text on a graph. -/
def run (source : String) (g : Graph) : Except Failure Outcome := do
  let formula ← parse source
  let analysis := formula.analyze
  if analysis.isValid then
    let result ← (formula.evaluate g).mapError .evaluation
    return { formula, analysis, result := some result }
  else
    return { formula, analysis, result := none }

end GraphLogic
