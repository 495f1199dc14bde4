import GraphLogic.Proofs.Formula.Text

/-!
# Sorts are spelled out

**Theorem (`spelled_of_parse`).** In a formula read from a text every variable has the sort of its
spelling. So two variables of one name are the same variable.

The lexer gives names their sorts, and reading passes the variables of the tokens on: the names of
a formula that was read are well formed, and the initial of such a name tells its sort.
-/

namespace GraphLogic

/-- The variable has the sort of its spelling. -/
def Variable.Spelled (x : Variable) : Prop := x.sort = .ofName x.name

theorem Variable.eq_of {x y : Variable} (hsort : x.sort = y.sort) (hname : x.name = y.name) :
    x = y := by
  obtain ⟨sx, x⟩ := x
  obtain ⟨sy, y⟩ := y
  obtain rfl : sx = sy := hsort
  obtain rfl : x = y := hname
  rfl

theorem Variable.Spelled.eq {x y : Variable} (hx : x.Spelled) (hy : y.Spelled)
    (hname : x.name = y.name) : x = y := by
  have hsort : VarSort.ofName x.name = y.sort := hname ▸ hy.symm
  exact Variable.eq_of (hx.trans hsort) hname

theorem Variable.WellNamed.spelled {x : Variable} (h : x.WellNamed) : x.Spelled := by
  have hofName := (Token.ofName_eq_var_iff.mp (wellNamed_iff.mp h).2).2
  exact (congrArg Variable.sort hofName).symm

/-- If the token is a variable, it has the sort of its spelling. -/
def Token.Spelled : Token → Prop
  | var x => x.Spelled
  | _ => True

/-- All variables have the sorts of their spellings. -/
def Formula.Spelled {σ : Type} : Formula σ → Prop
  | quantified _ _ x φ => x.value.Spelled ∧ φ.Spelled
  | binary _ _ φ ψ => φ.Spelled ∧ ψ.Spelled
  | negation _ _ φ => φ.Spelled
  | comparison _ _ x y => x.value.Spelled ∧ y.value.Spelled
  | relation _ r xs => r.value.token.Spelled ∧ ∀ x ∈ xs, x.value.Spelled

theorem Relation.WellNamed.spelled {r : Relation} (h : r.WellNamed) : r.token.Spelled := by
  cases r with
  | edge => trivial
  | set name => exact Variable.WellNamed.spelled h

theorem Formula.WellFormed.spelled {σ : Type} {φ : Formula σ} (h : φ.WellFormed) :
    φ.Spelled := by
  induction φ with
  | quantified p q x φ ih => exact ⟨h.1.spelled, ih h.2⟩
  | binary p c φ ψ ihφ ihψ => exact ⟨ihφ h.1, ihψ h.2⟩
  | negation p sign φ ih => exact ih h
  | comparison p o x y => exact ⟨h.1.spelled, h.2.spelled⟩
  | relation p r xs => exact ⟨h.1.spelled, fun x hx => (h.2.2 x hx).spelled⟩

theorem spelled_of_parse {source : String} {φ : Formula Span} (h : parse source = .ok φ) :
    φ.Spelled :=
  (wellFormed_of_parse h).spelled

end GraphLogic
