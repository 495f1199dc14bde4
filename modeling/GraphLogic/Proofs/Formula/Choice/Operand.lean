import GraphLogic.Proofs.Formula.Choice.Predicate

/-!
# Operands by ordered choice

**Theorem (`parses_unary`).** The parser of operands agrees with the reader, if the parser of
formulas that it uses for what is in parentheses does so on fewer tokens.

A formula in parentheses ends where no connective follows, so what was missed behind it still
counts: it is a connective or, if there is one, something in the operand behind it (`Trails`).
-/

namespace GraphLogic

variable {ts us used rest : List (Placed Span Token)} {r r' : Reader} {m n : Miss}
  {es fs : List Token} {t : Token} {φ : Formula Span}

namespace Grammar

open Parse Reader

/-! ## Starts -/

def atomStarts : List Token := [.edge, someVariable] ++ [.leftParen]

def bodyStarts : List Token :=
  [.quantifier .existential, .quantifier .universal] ++ atomStarts

def operandStarts : List Token := [.negation] ++ bodyStarts

def connectives : List Token :=
  [.connective .and, .connective .or, .connective .implies, .connective .iff]

theorem mem_bodyStarts_iff (hr : r.phase = .body) (u : Token) :
    u ∈ bodyStarts ↔ u ∈ r.expected := by
  obtain ⟨phase, level, outer⟩ := r
  obtain rfl : phase = .body := hr
  have hexpected : Reader.expected ⟨.body, level, outer⟩ = [.leftParen, .edge,
    .quantifier .universal, .quantifier .existential, someVariable] := rfl
  rw [hexpected]
  simp [bodyStarts, atomStarts]
  tauto

theorem mem_operandStarts_iff (hr : r.phase = .operand) (u : Token) :
    u ∈ operandStarts ↔ u ∈ r.expected := by
  obtain ⟨phase, level, outer⟩ := r
  obtain rfl : phase = .operand := hr
  have hexpected : Reader.expected ⟨.operand, level, outer⟩ = [.leftParen, .edge, .negation,
    .quantifier .universal, .quantifier .existential, someVariable] := rfl
  rw [hexpected]
  simp [operandStarts, bodyStarts, atomStarts]
  tauto

theorem quantifier_cases (ts : List (Placed Span Token)) :
    (∃ (q : Placed Span Quantifier) (rest : List (Placed Span Token)),
      ts = ⟨q.place, .quantifier q.value⟩ :: rest ∧ Takes q rest (quantifier.run ts)) ∨
      Missing ts [.quantifier .existential, .quantifier .universal] (quantifier.run ts) :=
  oneOf_cases (fun _ _ h => Token.quantifier.inj h) (fun _ _ => Token.noConfusion)
    (fun q => by cases q <;> decide) ts

theorem connective_cases (ts : List (Placed Span Token)) :
    (∃ (k : Placed Span Connective) (rest : List (Placed Span Token)),
      ts = ⟨k.place, .connective k.value⟩ :: rest ∧ Takes k rest (connective.run ts)) ∨
      Missing ts connectives (connective.run ts) :=
  oneOf_cases (fun _ _ h => Token.connective.inj h) (fun _ _ => Token.noConfusion)
    (fun k => by cases k <;> decide) ts

/-! ## Formulas with something behind them -/

/-- Behind a formula, the miss is that of a connective, or further on that of its operand. -/
def Trails (rest : List (Placed Span Token)) (m : Miss) : Prop :=
  m.rest = rest ∧ m.Fits connectives ∨
    (∃ place k us, rest = ⟨place, .connective k⟩ :: us) ∧ m.rest.length < rest.length ∧
      ∀ (r : Reader) (φ : Formula Span), r.phase = .complete φ → r.Misses rest m

/-- A parser reads a formula, as far as it goes, or comes to the same miss as the reader. -/
def Chains (ts : List (Placed Span Token)) (result : Except Miss (Parsed (Formula Span))) :
    Prop :=
  (∃ used φ rest m, ts = used ++ rest ∧ Phrase .formula used φ ∧
    result = .ok ⟨φ, rest, some m⟩ ∧ Trails rest m) ∨
  ∃ m, result = .error m ∧ ∀ r, Category.formula.Begins r → r.Misses ts m

/-- The parser does so on fewer than `limit` tokens. -/
def ChainsBelow (limit : Nat) (p : Parse (Formula Span)) : Prop :=
  ∀ us, us.length < limit → Chains us (p.run us)

theorem ChainsBelow.mono {p : Parse (Formula Span)} {limit limit' : Nat}
    (hp : ChainsBelow limit p) (hle : limit' ≤ limit) : ChainsBelow limit' p :=
  fun us hus => hp us (Nat.lt_of_lt_of_le hus hle)

/-- What has to stand behind a formula that is complete. -/
def closing (r : Reader) : Token := if r.outer.isEmpty then .endOfInput else .rightParen

theorem mem_closing_iff (hr : r.phase = .complete φ) (u : Token) :
    u ∈ closing r :: connectives ↔ u ∈ r.expected := by
  obtain ⟨phase, level, outer⟩ := r
  obtain rfl : phase = .complete φ := hr
  cases outer with
  | nil =>
    have hexpected : Reader.expected ⟨.complete φ, level, []⟩ = [.connective .implies,
      .connective .iff, .connective .and, .connective .or, .endOfInput] := rfl
    rw [hexpected]
    simp [closing, connectives]
    tauto
  | cons o outer =>
    have hexpected : Reader.expected ⟨.complete φ, level, o :: outer⟩ = [.rightParen,
      .connective .implies, .connective .iff, .connective .and, .connective .or] := rfl
    rw [hexpected]
    simp [closing, connectives]
    tauto

theorem Chains.before {p : Parse (Formula Span)} (h : Chains ts (p.run ts))
    (ht : t = .rightParen ∨ t = .endOfInput) :
    (∃ used φ place rest, ts = used ++ ⟨place, t⟩ :: rest ∧ Phrase .formula used φ ∧
      Takes φ rest ((p.before t).run ts)) ∨
    ∃ m, (p.before t).run ts = .error m ∧
      ∀ r, Category.formula.Begins r → closing r = t → r.Misses ts m := by
  rcases h with ⟨used, φ, rest, m, rfl, hφ, hp, htrails⟩ | ⟨m, hm, hmisses⟩
  · rcases before_cases hp t with ⟨place, rest', rfl, htakes⟩ | ⟨hclosing, herror⟩
    · refine Or.inl ⟨used, φ, place, rest', rfl, hφ, htakes ?_⟩
      rcases htrails with ⟨hrest, -⟩ | ⟨⟨_, k, _, h⟩, -⟩
      · rw [hrest]
        exact Nat.lt_succ_self _
      · cases h
        rcases ht with h | h <;> cases h
    · refine Or.inr ⟨_, herror, fun r hr ht' => ?_⟩
      refine Misses.of_steps (hφ.steps hr) ?_ rfl
      have hphase : (r.fill φ).phase = .complete (r.level.fill φ) := rfl
      have hexpected := mem_closing_iff hphase
      rw [show closing (r.fill φ) = t from ht'] at hexpected
      refine misses_furthest connectives ?_ hclosing hexpected ?_
      · rcases ht with rfl | rfl <;> exact fun _ => Token.noConfusion
      · exact htrails.imp_right fun h => ⟨h.2.1, h.2.2 _ _ hphase⟩
  · exact Or.inr ⟨m, bind_error hm _, fun r hr _ => hmisses r hr⟩

/-! ## Operands -/

section

variable {formula : Parse (Formula Span)}

theorem parses_parenthesized (hformula : ChainsBelow ts.length formula) :
    Parses .quantified [.leftParen] ts ((parenthesized formula).run ts) := by
  by_cases hopen : ∀ u ∈ ts.head?, u.value ≠ .leftParen
  · exact Or.inr ((missing_just (fun _ => Token.noConfusion) hopen ()).bind _).mapWithSpan
  · push Not at hopen
    obtain ⟨⟨opened, _⟩, hu, rfl⟩ := hopen
    obtain ⟨us, rfl⟩ := List.head?_eq_some_iff.mp hu
    refine Or.inl ⟨⟨_, rfl, List.mem_cons_self⟩, ?_⟩
    have hjust := takes_just .leftParen () opened us
    rcases (hformula us (Nat.lt_succ_self _)).before (Or.inl rfl) with
      ⟨used, φ, closed, rest, rfl, hφ, htakes⟩ | ⟨m, hm, hmisses⟩
    · let all : List (Placed Span Token) :=
        ⟨opened, .leftParen⟩ :: (used ++ [⟨closed, .rightParen⟩])
      have hplace : Span.hull (places all) = opened.upTo closed := by
        simp only [all, places_cons, places_append, places_nil]
        exact Span.hull_cons_concat opened closed (places used)
      have hts : ⟨opened, .leftParen⟩ :: (used ++ ⟨closed, .rightParen⟩ :: rest) = all ++ rest := by
        simp [all]
      have hread := hjust.bind (f := fun _ => formula.before .rightParen) htakes (by grind)
      refine Advances.of_takes (g := fun φ place => φ.moveTo place) hts hread ?_ ?_
      · grind
      · rw [hplace]
        exact .parenthesized hφ
    · have hle : m.rest.length ≤ us.length :=
        (hmisses { outer := [(opened, {})] } ⟨rfl, rfl⟩ rfl).length_le
      refine Or.inr ⟨m, mapWithSpan_error (hjust.bind_error
        (f := fun _ => formula.before .rightParen) hm hle), Nat.lt_succ_of_le hle, fun r hr => ?_⟩
      let inside : Reader := { outer := (opened, r.level) :: r.outer }
      have hstep : r.step? ⟨opened, .leftParen⟩ = some inside :=
        step?_eq_begin? hr Token.noConfusion
      exact Misses.of_step hstep (hmisses inside ⟨rfl, rfl⟩ rfl)

theorem parses_atom (hformula : ChainsBelow ts.length formula) :
    Parses .quantified atomStarts ts ((atom formula).run ts) :=
  (parses_predicate ts).orElse (parses_parenthesized hformula) (by decide)

theorem sample_quantifier_mem (q : Quantifier) :
    (Token.quantifier q).sample ∈ [Token.quantifier .existential, .quantifier .universal] := by
  cases q <;> decide

/-- The variable and the body of a quantifier. -/
def scope (body : Parse (Formula Span)) (q : Placed Span Quantifier) :
    Parse (Span → Formula Span) := do
  let x ← anyVariable
  let φ ← body
  return fun place => .quantified place q x φ

theorem scope_error {body : Parse (Formula Span)} {q : Placed Span Quantifier}
    {x : Placed Span Variable} (hx : Takes x us (anyVariable.run ts))
    (hm : body.run us = .error m) (hle : m.rest.length ≤ us.length) :
    (scope body q).run ts = .error m :=
  Takes.bind_error (f := fun x => body >>= fun φ =>
    pure fun place => Formula.quantified place q x φ) hx (bind_error hm _) hle

theorem parses_bound {body : Parse (Formula Span)}
    (hbody : ∀ us, us.length < ts.length → Parses .quantified bodyStarts us (body.run us)) :
    Parses .quantified [.quantifier .existential, .quantifier .universal] ts
      ((spanning (bound body)).run ts) := by
  rcases quantifier_cases ts with ⟨q, us, rfl, hq⟩ | hmissing
  · refine Or.inl ⟨⟨_, rfl, sample_quantifier_mem q.value⟩, ?_⟩
    rcases anyVariable_cases us with ⟨x, vs, rfl, hx⟩ | ⟨m, hm, hrest, hfits⟩
    · rcases (hbody vs (by grind)).outcome with
        ⟨used, φ, rest, rfl, hlt, hφ, htakes⟩ | ⟨m, hm, hle, hmisses⟩
      · have hread : Takes (fun place => .quantified place q x φ) rest ((bound body).run _) :=
          hq.bind (hx.bind (htakes.bind (takes_pure _ rest) (Nat.le_refl _)) (by simp))
            (by grind)
        have hts : ⟨q.place, .quantifier q.value⟩ :: ⟨x.place, .var x.value⟩ :: (used ++ rest) =
            (⟨q.place, .quantifier q.value⟩ :: ⟨x.place, .var x.value⟩ :: used) ++ rest := rfl
        have hbound : Phrase .quantified
            (⟨q.place, .quantifier q.value⟩ :: ⟨x.place, .var x.value⟩ :: used) _ := .bound hφ
        have hplace := hbound.place_eq_hull Category.noConfusion
        refine Advances.of_takes hts hread (by grind) ?_
        rw [← hplace]
        exact hbound
      · refine Or.inr ⟨m, ?_, by grind, fun r hr => ?_⟩
        · exact mapWithSpan_error (Takes.bind_error (f := scope body) hq (scope_error hx hm hle)
            (by grind))
        · have hsteps := steps?_quantifier hr q x []
          exact Misses.of_steps hsteps (hmisses _ (Or.inr rfl) (mem_bodyStarts_iff rfl)) rfl
    · refine Advances.of_missing ⟨m, ?_, hrest, hfits⟩ fun r hr =>
        ⟨_, step?_eq_begin? hr Token.noConfusion, rfl⟩
      exact mapWithSpan_error (Takes.bind_error (f := scope body) hq (bind_error hm _)
        (by rw [hrest]))
  · exact Or.inr (Missing.bind hmissing (scope body)).mapWithSpan

theorem parses_quantified (hformula : ChainsBelow ts.length formula) :
    Parses .quantified bodyStarts ts ((quantified formula).run ts) := by
  have hall : ∀ us, us.length ≤ ts.length →
      Parses .quantified bodyStarts us ((quantified formula).run us) := by
    refine recursive_spec (P := fun us result => us.length ≤ ts.length →
      Parses .quantified bodyStarts us result) fun body us hbody hle => ?_
    exact (parses_bound fun vs hvs => hbody vs hvs (by omega)).orElse
      (parses_atom (hformula.mono hle)) (by decide)
  exact hall ts (Nat.le_refl _)

theorem Advances.unnegated {limit : Nat} {result : Except Miss (Parsed (Formula Span))}
    (h : Advances .quantified ts limit result) : Advances .unary ts limit result := by
  rcases h with ⟨used, φ, rest, hts, hlt, hφ, h⟩ | ⟨m, hm, hlt, h⟩
  · exact Or.inl ⟨used, φ, rest, hts, hlt, .unnegated hφ, h⟩
  · exact Or.inr ⟨m, hm, hlt, fun r hr => h r (Or.inl hr)⟩

theorem parses_negated {inner : Parse (Formula Span)}
    (hinner : ∀ us, us.length < ts.length → Parses .unary operandStarts us (inner.run us)) :
    Parses .unary [.negation] ts ((spanning (negated inner)).run ts) := by
  by_cases hnegation : ∀ u ∈ ts.head?, u.value ≠ .negation
  · exact Or.inr ((missing_just (fun _ => Token.noConfusion) hnegation ()).located.bind
      _).mapWithSpan
  · push Not at hnegation
    obtain ⟨⟨place, _⟩, hu, rfl⟩ := hnegation
    obtain ⟨us, rfl⟩ := List.head?_eq_some_iff.mp hu
    refine Or.inl ⟨⟨_, rfl, List.mem_cons_self⟩, ?_⟩
    have hsign : Takes ⟨place, ()⟩ us
        ((located (just .negation ())).run (⟨place, .negation⟩ :: us)) :=
      (takes_just .negation () place us).located
    rcases (hinner us (Nat.lt_succ_self _)).outcome with
      ⟨used, φ, rest, rfl, hlt, hφ, htakes⟩ | ⟨m, hm, hle, hmisses⟩
    · have hread : Takes (fun place' => .negation place' place φ) rest ((negated inner).run _) :=
        hsign.bind (htakes.bind (takes_pure _ rest) (Nat.le_refl _)) (by simp)
      have hts : ⟨place, .negation⟩ :: (used ++ rest) = (⟨place, .negation⟩ :: used) ++ rest := rfl
      have hnegated : Phrase .unary (⟨place, .negation⟩ :: used) _ := .negated hφ
      have hplace := hnegated.place_eq_hull Category.noConfusion
      refine Advances.of_takes hts hread (by grind) ?_
      rw [← hplace]
      exact hnegated
    · refine Or.inr ⟨m, ?_, Nat.lt_succ_of_le hle, fun r hr => ?_⟩
      · exact mapWithSpan_error (Takes.bind_error (f := fun (sign : Placed Span Unit) => do
          let φ ← inner
          return fun place => Formula.negation place sign.place φ) hsign (bind_error hm _) hle)
      · have hsteps := steps?_negation hr place []
        exact Misses.of_steps hsteps (hmisses _ hr (mem_operandStarts_iff hr)) rfl

theorem parses_unary (hformula : ChainsBelow ts.length formula) :
    Parses .unary operandStarts ts ((unary formula).run ts) := by
  have hall : ∀ us, us.length ≤ ts.length →
      Parses .unary operandStarts us ((unary formula).run us) := by
    refine recursive_spec (P := fun us result => us.length ≤ ts.length →
      Parses .unary operandStarts us result) fun inner us hinner hle => ?_
    have hquantified : Parses .unary bodyStarts us ((quantified formula).run us) :=
      (parses_quantified (hformula.mono hle)).imp_left fun h => ⟨h.1, h.2.unnegated⟩
    exact (parses_negated fun vs hvs => hinner vs hvs (by omega)).orElse hquantified (by decide)
  exact hall ts (Nat.le_refl _)

end

end Grammar

end GraphLogic
