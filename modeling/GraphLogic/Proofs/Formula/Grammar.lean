import GraphLogic.Token

/-!
# The grammar of formulas

    formula    = unary {connective unary}
    unary      = "¬" unary | quantified
    quantified = quantifier variable quantified | predicate
    predicate  = relation "(" variables ")" | variable comparison variable | "(" formula ")"
    relation   = "E" | set variable
    variables  = variable {"," variable}

`Sentence` says which lists of tokens the grammar derives, and which tree each derivation stands
for. All connectives are at one level and group to the left, which is why a connective has a whole
formula on its left and an operand without connectives on its right. Parentheses leave no node.
-/

namespace GraphLogic

/-- What can be derived. -/
inductive Category
  | formula
  /-- An operand of a connective or a negation. -/
  | unary
  /-- The body of a quantifier. -/
  | quantified
  deriving DecidableEq, Repr

/-- The token that a relation is written with. -/
def Relation.token : Relation → Token
  | edge => .edge
  | set name => .var ⟨.set, name⟩

/-- Variables with commas between them. -/
def varList : List Variable → List Token
  | [] => []
  | x :: xs => .var x :: xs.flatMap fun y => [.comma, .var y]

/-- The grammar derives the tokens from the category, with the tree. -/
inductive Sentence : Category → List Token → Formula Unit → Prop
  | operand {p : List Token} {φ : Formula Unit} :
      Sentence .unary p φ → Sentence .formula p φ
  | connected {p q : List Token} {φ ψ : Formula Unit} {c : Connective} :
      Sentence .formula p φ → Sentence .unary q ψ →
      Sentence .formula (p ++ .connective c :: q) (.binary () ⟨(), c⟩ φ ψ)
  | negated {p : List Token} {φ : Formula Unit} :
      Sentence .unary p φ → Sentence .unary (.negation :: p) (.negation () () φ)
  | unnegated {p : List Token} {φ : Formula Unit} :
      Sentence .quantified p φ → Sentence .unary p φ
  | bound {p : List Token} {φ : Formula Unit} {q : Quantifier} {x : Variable} :
      Sentence .quantified p φ →
      Sentence .quantified (.quantifier q :: .var x :: p) (.quantified () ⟨(), q⟩ ⟨(), x⟩ φ)
  | related {r : Relation} {xs : List Variable} :
      xs ≠ [] →
      Sentence .quantified (r.token :: .leftParen :: (varList xs ++ [.rightParen]))
        (.relation () ⟨(), r⟩ (xs.map fun x => ⟨(), x⟩))
  | compared {x y : Variable} {o : Comparison} :
      Sentence .quantified [.var x, .comparison o, .var y] (.comparison () ⟨(), o⟩ ⟨(), x⟩ ⟨(), y⟩)
  | parenthesized {p : List Token} {φ : Formula Unit} :
      Sentence .formula p φ → Sentence .quantified (.leftParen :: (p ++ [.rightParen])) φ

theorem varList_concat {xs : List Variable} (hxs : xs ≠ []) (y : Variable) :
    varList (xs ++ [y]) = varList xs ++ [.comma, .var y] := by
  cases xs with
  | nil => exact absurd rfl hxs
  | cons x xs =>
    rw [List.cons_append, varList, varList, List.flatMap_append, List.cons_append]
    rfl

end GraphLogic
