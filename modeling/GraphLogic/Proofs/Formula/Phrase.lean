import GraphLogic.Formula
import GraphLogic.Proofs.Formula.Grammar

/-!
# Phrases

A phrase is a sentence of the grammar whose tokens have places, together with the tree that the
reader makes of it: a node is placed from its first token to its last, and parentheses move the
outermost node inside them out to themselves.

**Theorem (`Sentence.exists_phrase`).** Wherever the tokens of a sentence stand, they are a phrase.
-/

namespace GraphLogic

/-- A list of arguments behind the first, each with the comma before it. -/
def argumentTokens (xs : List (Span × Placed Span Variable)) : List (Placed Span Token) :=
  xs.flatMap fun (comma, x) => [⟨comma, .comma⟩, ⟨x.place, .var x.value⟩]

/-- The grammar derives the tokens, at their places, from the category, with the tree. -/
inductive Phrase : Category → List (Placed Span Token) → Formula Span → Prop
  | operand {ts : List (Placed Span Token)} {φ : Formula Span} :
      Phrase .unary ts φ → Phrase .formula ts φ
  | connected {ts us : List (Placed Span Token)} {φ ψ : Formula Span}
      {c : Placed Span Connective} :
      Phrase .formula ts φ → Phrase .unary us ψ →
      Phrase .formula (ts ++ ⟨c.place, .connective c.value⟩ :: us)
        (.binary (φ.place.cover ψ.place) c φ ψ)
  | negated {ts : List (Placed Span Token)} {φ : Formula Span} {sign : Span} :
      Phrase .unary ts φ →
      Phrase .unary (⟨sign, .negation⟩ :: ts) (.negation (sign.upTo φ.place) sign φ)
  | unnegated {ts : List (Placed Span Token)} {φ : Formula Span} :
      Phrase .quantified ts φ → Phrase .unary ts φ
  | bound {ts : List (Placed Span Token)} {φ : Formula Span} {q : Placed Span Quantifier}
      {x : Placed Span Variable} :
      Phrase .quantified ts φ →
      Phrase .quantified (⟨q.place, .quantifier q.value⟩ :: ⟨x.place, .var x.value⟩ :: ts)
        (.quantified (q.place.upTo φ.place) q x φ)
  | related {r : Placed Span Relation} {opened closed : Span} {x : Placed Span Variable}
      {xs : List (Span × Placed Span Variable)} :
      Phrase .quantified
        (⟨r.place, r.value.token⟩ :: ⟨opened, .leftParen⟩ :: ⟨x.place, .var x.value⟩ ::
          (argumentTokens xs ++ [⟨closed, .rightParen⟩]))
        (.relation (r.place.upTo closed) r (x :: xs.map (·.2)))
  | compared {x y : Placed Span Variable} {o : Placed Span Comparison} :
      Phrase .quantified
        [⟨x.place, .var x.value⟩, ⟨o.place, .comparison o.value⟩, ⟨y.place, .var y.value⟩]
        (.comparison (x.place.upTo y.place) o x y)
  | parenthesized {ts : List (Placed Span Token)} {φ : Formula Span} {opened closed : Span} :
      Phrase .formula ts φ →
      Phrase .quantified (⟨opened, .leftParen⟩ :: (ts ++ [⟨closed, .rightParen⟩]))
        (φ.moveTo (opened.upTo closed))

theorem Formula.bare_moveTo (φ : Formula Span) (place : Span) :
    (φ.moveTo place).bare = φ.bare := by
  cases φ <;> rfl

/-! ## Sentences with places -/

variable {c : Category} {p : List Token} {φ : Formula Span} {ts : List (Placed Span Token)}

theorem exists_argumentTokens {ys : List Variable}
    (hts : ts.map (·.value) = (ys.flatMap fun y => [.comma, .var y]) ++ [.rightParen]) :
    ∃ xs closed, ts = argumentTokens xs ++ [⟨closed, .rightParen⟩] ∧
      xs.map (·.2.value) = ys := by
  induction ys generalizing ts with
  | nil =>
    obtain ⟨⟨closed, _⟩, us, rfl, rfl, hus⟩ := List.map_eq_cons_iff.mp hts
    obtain rfl := List.map_eq_nil_iff.mp hus
    exact ⟨[], closed, rfl, rfl⟩
  | cons y ys ih =>
    obtain ⟨⟨comma, _⟩, us, rfl, rfl, hus⟩ := List.map_eq_cons_iff.mp hts
    obtain ⟨⟨place, _⟩, vs, rfl, rfl, hvs⟩ := List.map_eq_cons_iff.mp hus
    obtain ⟨xs, closed, rfl, rfl⟩ := ih hvs
    exact ⟨(comma, ⟨place, y⟩) :: xs, closed, rfl, rfl⟩

/-- Wherever the tokens of a sentence stand, they are a phrase. -/
theorem Sentence.exists_phrase {φ : Formula Unit} (h : Sentence c p φ)
    (hts : ts.map (·.value) = p) : ∃ ψ, ψ.bare = φ ∧ Phrase c ts ψ := by
  induction h generalizing ts with
  | operand _ ih =>
    obtain ⟨φ, rfl, hφ⟩ := ih hts
    exact ⟨φ, rfl, .operand hφ⟩
  | @connected p q _ _ k _ _ ihp ihq =>
    obtain ⟨us, vs, rfl, hus, hvs⟩ := List.map_eq_append_iff.mp hts
    obtain ⟨⟨place, _⟩, ws, rfl, rfl, hws⟩ := List.map_eq_cons_iff.mp hvs
    obtain ⟨φ, rfl, hφ⟩ := ihp hus
    obtain ⟨ψ, rfl, hψ⟩ := ihq hws
    exact ⟨_, rfl, Phrase.connected (c := ⟨place, k⟩) hφ hψ⟩
  | negated _ ih =>
    obtain ⟨⟨sign, _⟩, us, rfl, rfl, hus⟩ := List.map_eq_cons_iff.mp hts
    obtain ⟨φ, rfl, hφ⟩ := ih hus
    exact ⟨_, rfl, .negated hφ⟩
  | unnegated _ ih =>
    obtain ⟨φ, rfl, hφ⟩ := ih hts
    exact ⟨φ, rfl, .unnegated hφ⟩
  | @bound p _ k x _ ih =>
    obtain ⟨⟨place, _⟩, us, rfl, rfl, hus⟩ := List.map_eq_cons_iff.mp hts
    obtain ⟨⟨place', _⟩, vs, rfl, rfl, hvs⟩ := List.map_eq_cons_iff.mp hus
    obtain ⟨φ, rfl, hφ⟩ := ih hvs
    exact ⟨_, rfl, Phrase.bound (q := ⟨place, k⟩) (x := ⟨place', x⟩) hφ⟩
  | @related s xs hxs =>
    obtain ⟨x, xs, rfl⟩ := List.exists_cons_of_ne_nil hxs
    obtain ⟨⟨place, _⟩, us, rfl, rfl, hus⟩ := List.map_eq_cons_iff.mp hts
    obtain ⟨⟨opened, _⟩, vs, rfl, rfl, hvs⟩ := List.map_eq_cons_iff.mp hus
    obtain ⟨⟨first, _⟩, ws, rfl, rfl, hws⟩ := List.map_eq_cons_iff.mp hvs
    obtain ⟨ys, closed, rfl, rfl⟩ := exists_argumentTokens hws
    refine ⟨_, ?_, Phrase.related (r := ⟨place, s⟩) (x := ⟨first, x⟩)⟩
    show Formula.relation () ⟨(), s⟩ (⟨(), x⟩ :: (ys.map _).map _) = _
    rw [List.map_cons, List.map_map, List.map_map]
    rfl
  | @compared x y o =>
    obtain ⟨⟨place, _⟩, us, rfl, rfl, hus⟩ := List.map_eq_cons_iff.mp hts
    obtain ⟨⟨place', _⟩, vs, rfl, rfl, hvs⟩ := List.map_eq_cons_iff.mp hus
    obtain ⟨⟨place'', _⟩, ws, rfl, rfl, hws⟩ := List.map_eq_cons_iff.mp hvs
    obtain rfl := List.map_eq_nil_iff.mp hws
    exact ⟨_, rfl, Phrase.compared (x := ⟨place, x⟩) (y := ⟨place'', y⟩) (o := ⟨place', o⟩)⟩
  | parenthesized _ ih =>
    obtain ⟨⟨opened, _⟩, us, rfl, rfl, hus⟩ := List.map_eq_cons_iff.mp hts
    obtain ⟨vs, ws, rfl, hvs, hws⟩ := List.map_eq_append_iff.mp hus
    obtain ⟨⟨closed, _⟩, xs, rfl, rfl, hxs⟩ := List.map_eq_cons_iff.mp hws
    obtain rfl := List.map_eq_nil_iff.mp hxs
    obtain ⟨φ, rfl, hφ⟩ := ih hvs
    exact ⟨_, φ.bare_moveTo _, .parenthesized hφ⟩

end GraphLogic
