import GraphLogic.Proofs.Formula.Reading.Invariant

/-!
# Sentences are read

**Theorem (`Phrase.steps`).** From every state in which a phrase can begin, its tokens take the
reader to the state that has the tree of the phrase as its innermost operand.

The proof goes along the derivation. As the reader is deterministic, no sentence has two trees
(`Sentence.tree_unique`).
-/

namespace GraphLogic

variable {c : Category} {p : List Token} {r : Reader} {t : Placed Span Token}
  {ts : List (Placed Span Token)}

/-- A sentence of the category can begin in the state. -/
def Category.Begins (r : Reader) : Category → Prop
  | formula => r.phase = .operand ∧ r.level = {}
  | unary => r.phase = .operand
  | quantified => r.phase = .operand ∨ r.phase = .body

namespace Reader

theorem step?_eq_begin? (hr : Category.quantified.Begins r) (ht : t.value ≠ .negation) :
    r.step? t = r.begin? t := by
  obtain ⟨place, value⟩ := t
  unfold step?
  rcases hr with hr | hr
  · rw [hr]
    cases value with
    | negation => exact absurd rfl ht
    | _ => rfl
  · rw [hr]

theorem steps?_negation (hr : r.phase = .operand) (place : Span)
    (ts : List (Placed Span Token)) :
    r.steps? (⟨place, .negation⟩ :: ts) =
      ({ r with level := r.level.addHead (.negation place) } : Reader).steps? ts := by
  obtain ⟨phase, level, outer⟩ := r
  obtain rfl : phase = .operand := hr
  rw [steps?_cons rfl]

/-- A quantifier and its variable. -/
theorem steps?_quantifier (hr : Category.quantified.Begins r) (k : Placed Span Quantifier)
    (x : Placed Span Variable) (ts : List (Placed Span Token)) :
    r.steps? (⟨k.place, .quantifier k.value⟩ :: ⟨x.place, .var x.value⟩ :: ts) =
      ({ r with phase := .body, level := r.level.addHead (.quantifier k x) } : Reader).steps?
        ts := by
  let binder : Reader := { r with phase := .binder k }
  have hbinder : r.step? ⟨k.place, .quantifier k.value⟩ = some binder :=
    step?_eq_begin? hr Token.noConfusion
  rw [steps?_cons hbinder, steps?_cons rfl]

theorem steps?_open (hr : Category.quantified.Begins r) (place : Span)
    (ts : List (Placed Span Token)) :
    r.steps? (⟨place, .leftParen⟩ :: ts) =
      ({ outer := (place, r.level) :: r.outer } : Reader).steps? ts := by
  have hopen : r.step? ⟨place, .leftParen⟩ = some { outer := (place, r.level) :: r.outer } :=
    step?_eq_begin? hr Token.noConfusion
  rw [steps?_cons hopen]

/-- The symbol of a relation and the parenthesis behind it. -/
theorem steps?_symbol (hr : Category.quantified.Begins r) (s : Relation) (place opened : Span)
    (ts : List (Placed Span Token)) :
    r.steps? (⟨place, s.token⟩ :: ⟨opened, .leftParen⟩ :: ts) =
      ({ r with phase := .argument ⟨place, s⟩ [] } : Reader).steps? ts := by
  cases s with
  | edge =>
    let symbol : Reader := { r with phase := .opening ⟨place, .edge⟩ }
    have hsymbol : r.step? ⟨place, .edge⟩ = some symbol :=
      step?_eq_begin? hr Token.noConfusion
    rw [Relation.token, steps?_cons hsymbol, steps?_cons rfl]
  | set name =>
    let symbol : Reader := { r with phase := .afterSet ⟨place, ⟨.set, name⟩⟩ }
    have hsymbol : r.step? ⟨place, .var ⟨.set, name⟩⟩ = some symbol :=
      step?_eq_begin? hr Token.noConfusion
    rw [Relation.token, steps?_cons hsymbol, steps?_cons rfl]

/-- The arguments behind the first. -/
theorem steps?_argumentTokens {s : Placed Span Relation} {xs : List (Placed Span Variable)}
    (hr : r.phase = .separator s xs) (ys : List (Span × Placed Span Variable)) :
    r.steps? (argumentTokens ys) =
      some { r with phase := .separator s (xs ++ ys.map (·.2)) } := by
  obtain ⟨phase, level, outer⟩ := r
  obtain rfl : phase = .separator s xs := hr
  induction ys generalizing xs with
  | nil =>
    rw [List.map_nil, List.append_nil]
    rfl
  | cons y ys ih =>
    obtain ⟨comma, y⟩ := y
    have htokens : argumentTokens ((comma, y) :: ys) =
        ⟨comma, .comma⟩ :: ⟨y.place, .var y.value⟩ :: argumentTokens ys := rfl
    rw [htokens, steps?_cons rfl, steps?_cons rfl]
    refine (@ih (xs ++ [y])).trans ?_
    rw [List.append_assoc]
    rfl

/-- The left operand of a comparison and the operator. -/
theorem steps?_compared (hr : Category.quantified.Begins r) (x : Placed Span Variable)
    (o : Placed Span Comparison) (ts : List (Placed Span Token)) :
    r.steps? (⟨x.place, .var x.value⟩ :: ⟨o.place, .comparison o.value⟩ :: ts) =
      ({ r with phase := .compared x o } : Reader).steps? ts := by
  obtain ⟨place, ⟨sort, name⟩⟩ := x
  cases sort with
  | element =>
    let left : Reader := { r with phase := .afterElement ⟨place, ⟨.element, name⟩⟩ }
    have hleft : r.step? ⟨place, .var ⟨.element, name⟩⟩ = some left :=
      step?_eq_begin? hr Token.noConfusion
    rw [steps?_cons hleft, steps?_cons rfl]
  | set =>
    let left : Reader := { r with phase := .afterSet ⟨place, ⟨.set, name⟩⟩ }
    have hleft : r.step? ⟨place, .var ⟨.set, name⟩⟩ = some left :=
      step?_eq_begin? hr Token.noConfusion
    rw [steps?_cons hleft, steps?_cons rfl]

end Reader

/-- The tokens of a phrase take the reader to the state with the tree of the phrase in it. -/
theorem Phrase.steps {φ : Formula Span} (h : Phrase c ts φ) {r : Reader} (hr : c.Begins r) :
    r.steps? ts = some (r.fill φ) := by
  induction h generalizing r with
  | operand _ ih => exact ih hr.1
  | @connected ts us φ ψ k _ _ ihφ ihψ =>
    obtain ⟨phase, level, outer⟩ := r
    obtain ⟨rfl, rfl⟩ := hr
    let right : Reader := { level := { left := some (φ, k) }, outer }
    have hright : Reader.step? ⟨.complete φ, {}, outer⟩ ⟨k.place, .connective k.value⟩ =
      some right := rfl
    rw [Reader.steps?_append (ihφ (r := ⟨.operand, {}, outer⟩) ⟨rfl, rfl⟩)]
    refine (Reader.steps?_cons hright us).trans ?_
    rw [ihψ (r := right) rfl]
    rfl
  | @negated ts φ sign _ ih =>
    let inner : Reader := { r with level := r.level.addHead (.negation sign) }
    rw [Reader.steps?_negation hr, ih (r := inner) hr]
    rfl
  | unnegated _ ih => exact ih (Or.inl hr)
  | @bound ts φ k x _ ih =>
    let body : Reader := { r with phase := .body, level := r.level.addHead (.quantifier k x) }
    rw [Reader.steps?_quantifier hr k x, ih (r := body) (Or.inr rfl)]
    rfl
  | @related s opened closed x xs =>
    let opening : Reader := { r with phase := .argument s [] }
    let given : Reader := { r with phase := .separator s [x] }
    have hgiven : opening.step? ⟨x.place, .var x.value⟩ = some given := rfl
    rw [Reader.steps?_symbol hr, Reader.steps?_cons hgiven,
      Reader.steps?_append (Reader.steps?_argumentTokens (r := given) rfl xs)]
    rfl
  | @compared x y o =>
    rw [Reader.steps?_compared hr]
    rfl
  | @parenthesized ts φ opened closed _ ih =>
    let inner : Reader := { outer := (opened, r.level) :: r.outer }
    rw [Reader.steps?_open hr, Reader.steps?_append (ih (r := inner) ⟨rfl, rfl⟩)]
    rfl

/-- The tokens of a sentence take the reader to the state with the tree of the sentence in it. -/
theorem Sentence.steps {φ : Formula Unit} (h : Sentence c p φ) {r : Reader} (hr : c.Begins r)
    {ts : List (Placed Span Token)} (hts : ts.map (·.value) = p) :
    ∃ ψ, ψ.bare = φ ∧ r.steps? ts = some (r.fill ψ) := by
  obtain ⟨ψ, hψ, hphrase⟩ := h.exists_phrase hts
  exact ⟨ψ, hψ, hphrase.steps hr⟩

/-- **The grammar is unambiguous.** -/
theorem Sentence.tree_unique {φ ψ : Formula Unit} (hφ : Sentence .formula p φ)
    (hψ : Sentence .formula p ψ) : φ = ψ := by
  let ts : List (Placed Span Token) := p.map fun t => ⟨default, t⟩
  have hts : ts.map (·.value) = p := by
    rw [List.map_map]
    exact List.map_id p
  obtain ⟨φ', rfl, hφ'⟩ := hφ.steps (r := {}) ⟨rfl, rfl⟩ hts
  obtain ⟨ψ', rfl, hψ'⟩ := hψ.steps (r := {}) ⟨rfl, rfl⟩ hts
  rw [hφ', Option.some_inj] at hψ'
  have hphase := congrArg Reader.phase hψ'
  exact congrArg Formula.bare (Phase.complete.inj hphase)

end GraphLogic
