import GraphLogic.Formula.Reading
import GraphLogic.Proofs.Formula.Phrase

/-!
# What was read is a sentence

**Theorem (`Reader.Follows.sentence`).** Where the input can end, the tokens that were read are a
sentence of the grammar, with the tree that was read.

The proof goes along the tokens with the invariant `Reader.Follows`: each open level awaits the
rest of a formula, and a predicate that was begun is the only part of the input that is in no
level yet. One token keeps it (`Reader.Follows.step`), and so does a run (`Reader.Follows.steps`).
-/

namespace GraphLogic

variable {φ : Formula Span} {p q : List Token} {l : Level} {r r' : Reader} {t : Placed Span Token}
  {ts : List (Placed Span Token)} {outer : List (Span × Level)}

/-! ## Levels -/

namespace Level

/-- Behind the tokens `p`, each sentence of the category completes the level to a formula. -/
def Awaits (l : Level) (c : Category) (p : List Token) : Prop :=
  ∀ q φ, Sentence c q φ.bare → Sentence .formula (p ++ q) (l.fill φ).bare

theorem awaits_empty : Awaits {} .unary [] := fun _ _ hq => .operand hq

theorem awaits_left {k : Placed Span Connective} (hp : Sentence .formula p φ.bare) :
    Awaits { left := some (φ, k) } .unary (p ++ [.connective k.value]) := by
  intro q ψ hq
  rw [List.append_assoc]
  exact .connected hp hq

theorem Awaits.body (hl : l.Awaits .unary p) : l.Awaits .quantified p :=
  fun q φ hq => hl q φ (.unnegated hq)

theorem Awaits.negation {sign : Span} (hl : l.Awaits .unary p) :
    (l.addHead (.negation sign)).Awaits .unary (p ++ [.negation]) := by
  intro q φ hq
  rw [List.append_assoc]
  exact hl _ (.negation (sign.upTo φ.place) sign φ) (.negated hq)

theorem Awaits.quantifier {k : Placed Span Quantifier} {x : Placed Span Variable}
    (hl : l.Awaits .quantified p) :
    (l.addHead (.quantifier k x)).Awaits .quantified
      (p ++ [.quantifier k.value, .var x.value]) := by
  intro q φ hq
  rw [List.append_assoc]
  exact hl _ (.quantified (k.place.upTo φ.place) k x φ) (.bound hq)

end Level

/-- The tokens up to the innermost open parenthesis lead to the levels outside it. -/
inductive Enclosed : List (Span × Level) → List Token → Prop
  | outermost : Enclosed [] []
  | inside {outer : List (Span × Level)} {l : Level} {opened : Span} {p q : List Token} :
      Enclosed outer p → l.Awaits .quantified q →
      Enclosed ((opened, l) :: outer) (p ++ (q ++ [.leftParen]))

/-! ## States -/

namespace Phase

/-- The tokens of a quantifier or a predicate that was begun. -/
def pending : Phase → List Token
  | binder k => [.quantifier k.value]
  | opening s => [s.value.token]
  | afterSet x | afterElement x => [.var x.value]
  | compared x o => [.var x.value, .comparison o.value]
  | argument s xs =>
    s.value.token :: .leftParen ::
      (varList (xs.map (·.value)) ++ if xs.isEmpty then [] else [.comma])
  | separator s xs => s.value.token :: .leftParen :: varList (xs.map (·.value))
  | operand | body | complete _ => []

/-- What is known of a predicate that was begun. -/
def Begun : Phase → Prop
  | afterSet x => x.value.sort = .set
  | separator _ xs => xs ≠ []
  | _ => True

/-- The phase says what `q`, the tokens since the innermost open parenthesis, come down to. -/
def Follows (l : Level) (q : List Token) : Phase → Prop
  | operand => l.Awaits .unary q
  | complete φ => Sentence .formula q φ.bare
  | phase => phase.Begun ∧ ∃ q', q = q' ++ phase.pending ∧ l.Awaits .quantified q'

variable {s : Placed Span Relation} {xs : List (Placed Span Variable)}

theorem pending_argument (s : Placed Span Relation) (xs : List (Placed Span Variable))
    (x : Placed Span Variable) :
    (argument s xs).pending ++ [.var x.value] = (separator s (xs ++ [x])).pending := by
  cases xs with
  | nil => rfl
  | cons y ys =>
    have hne : (y :: ys).map (·.value) ≠ [] := by simp
    show _ = s.value.token :: .leftParen :: varList (((y :: ys) ++ [x]).map (·.value))
    rw [List.map_append, List.map_singleton, varList_concat hne]
    simp [pending]

theorem pending_separator (hxs : xs ≠ []) :
    (separator s xs).pending ++ [.comma] = (argument s xs).pending := by
  cases xs with
  | nil => exact absurd rfl hxs
  | cons x xs => rfl

theorem sentence_related (hxs : xs ≠ []) (place : Span) :
    Sentence .quantified ((separator s xs).pending ++ [.rightParen])
      (Formula.relation place s xs).bare := by
  have hne : xs.map (·.value) ≠ [] := fun h => hxs (List.map_eq_nil_iff.mp h)
  have hsentence := Sentence.related (r := s.value) hne
  rwa [List.map_map] at hsentence

end Phase

namespace Reader

/-- The tokens `p` lead to the state. -/
def Follows (r : Reader) (p : List Token) : Prop :=
  ∃ p₁ p₂, p = p₁ ++ p₂ ∧ Enclosed r.outer p₁ ∧ r.phase.Follows r.level p₂

theorem follows_start : Follows {} [] := ⟨[], [], rfl, .outermost, Level.awaits_empty⟩

section

variable {p₁ p₂ : List Token}

theorem follows_fill (hr : Enclosed r.outer p₁) (hl : r.level.Awaits .quantified p₂)
    (hq : Sentence .quantified q φ.bare) : (r.fill φ).Follows (p₁ ++ (p₂ ++ q)) :=
  ⟨p₁, p₂ ++ q, rfl, hr, hl q φ hq⟩

theorem follows_begin (hr : Enclosed r.outer p₁) (hl : r.level.Awaits .quantified p₂)
    (hstep : r.begin? t = some r') : r'.Follows (p₁ ++ (p₂ ++ [t.value])) := by
  obtain ⟨place, value⟩ := t
  cases value with
  | quantifier k =>
    cases hstep
    exact ⟨p₁, _, rfl, hr, trivial, p₂, rfl, hl⟩
  | edge =>
    cases hstep
    exact ⟨p₁, _, rfl, hr, trivial, p₂, rfl, hl⟩
  | var x =>
    obtain ⟨sort, name⟩ := x
    cases sort with
    | element =>
      cases hstep
      exact ⟨p₁, _, rfl, hr, trivial, p₂, rfl, hl⟩
    | set =>
      cases hstep
      exact ⟨p₁, _, rfl, hr, rfl, p₂, rfl, hl⟩
  | leftParen =>
    cases hstep
    exact ⟨_, [], (List.append_nil _).symm, .inside hr hl, Level.awaits_empty⟩
  | _ => cases hstep

/-- The parenthesis that closes the innermost level. -/
theorem follows_close {opened place : Span} (hr : Enclosed ((opened, l) :: outer) p₁)
    (hφ : Sentence .formula p₂ φ.bare) :
    (fill { level := l, outer } (φ.moveTo place)).Follows (p₁ ++ (p₂ ++ [.rightParen])) := by
  cases hr with
  | inside hp hl =>
    rw [List.append_assoc, List.append_assoc]
    refine follows_fill hp hl ?_
    rw [Formula.bare_moveTo]
    exact .parenthesized hφ

end

/-- **One token.** -/
theorem Follows.step (hr : r.Follows p) (hstep : r.step? t = some r') :
    r'.Follows (p ++ [t.value]) := by
  obtain ⟨phase, level, outer⟩ := r
  obtain ⟨p₁, p₂, rfl, hp₁, hp₂⟩ := hr
  obtain ⟨place, value⟩ := t
  rw [List.append_assoc]
  cases phase with
  | operand =>
    cases value with
    | negation =>
      cases hstep
      exact ⟨p₁, _, rfl, hp₁, Level.Awaits.negation hp₂⟩
    | _ => exact follows_begin hp₁ (Level.Awaits.body hp₂) hstep
  | body =>
    obtain ⟨-, p₂, rfl, hl⟩ := hp₂
    rw [Phase.pending, List.append_nil]
    exact follows_begin hp₁ hl hstep
  | binder k =>
    obtain ⟨-, p₂, rfl, hl⟩ := hp₂
    cases value with
    | var x =>
      cases hstep
      refine ⟨p₁, _, rfl, hp₁, trivial, _, ?_, hl.quantifier⟩
      rw [Phase.pending, Phase.pending, List.append_nil, List.append_assoc]
      rfl
    | _ => cases hstep
  | opening s =>
    obtain ⟨-, p₂, rfl, hl⟩ := hp₂
    cases value with
    | leftParen =>
      cases hstep
      exact ⟨p₁, _, rfl, hp₁, trivial, p₂, List.append_assoc .., hl⟩
    | _ => cases hstep
  | afterSet x =>
    obtain ⟨hx, p₂, rfl, hl⟩ := hp₂
    cases value with
    | leftParen =>
      cases hstep
      refine ⟨p₁, _, rfl, hp₁, trivial, p₂, ?_, hl⟩
      obtain ⟨px, ⟨sort, name⟩⟩ := x
      obtain rfl : sort = .set := hx
      exact List.append_assoc ..
    | comparison o =>
      cases hstep
      exact ⟨p₁, _, rfl, hp₁, trivial, p₂, List.append_assoc .., hl⟩
    | _ => cases hstep
  | afterElement x =>
    obtain ⟨-, p₂, rfl, hl⟩ := hp₂
    cases value with
    | comparison o =>
      cases hstep
      exact ⟨p₁, _, rfl, hp₁, trivial, p₂, List.append_assoc .., hl⟩
    | _ => cases hstep
  | compared x o =>
    obtain ⟨-, p₂, rfl, hl⟩ := hp₂
    cases value with
    | var y =>
      cases hstep
      rw [List.append_assoc]
      exact follows_fill hp₁ hl .compared
    | _ => cases hstep
  | argument s xs =>
    obtain ⟨-, p₂, rfl, hl⟩ := hp₂
    cases value with
    | var x =>
      cases hstep
      refine ⟨p₁, _, rfl, hp₁, by simp [Phase.Begun], p₂, ?_, hl⟩
      rw [List.append_assoc]
      exact congrArg (p₂ ++ ·) (Phase.pending_argument s xs ⟨place, x⟩)
    | _ => cases hstep
  | separator s xs =>
    obtain ⟨hxs, p₂, rfl, hl⟩ := hp₂
    cases value with
    | comma =>
      cases hstep
      refine ⟨p₁, _, rfl, hp₁, trivial, p₂, ?_, hl⟩
      rw [List.append_assoc]
      exact congrArg (p₂ ++ ·) (Phase.pending_separator hxs)
    | rightParen =>
      cases hstep
      rw [List.append_assoc]
      exact follows_fill hp₁ hl (Phase.sentence_related hxs _)
    | _ => cases hstep
  | complete φ =>
    cases value with
    | connective k =>
      cases hstep
      exact ⟨p₁, _, rfl, hp₁, Level.awaits_left (k := ⟨place, k⟩) hp₂⟩
    | rightParen =>
      cases outer with
      | nil => cases hstep
      | cons o outer =>
        cases hstep
        exact follows_close hp₁ hp₂
    | _ => cases hstep

/-! ## Runs -/

/-- The state after the tokens, if each of them can come next. -/
def steps? (r : Reader) : List (Placed Span Token) → Option Reader
  | [] => some r
  | t :: ts =>
    match r.step? t with
    | some next => next.steps? ts
    | none => none

theorem steps?_cons (hstep : r.step? t = some r') (ts : List (Placed Span Token)) :
    r.steps? (t :: ts) = r'.steps? ts := by
  rw [steps?, hstep]

theorem steps?_append {us : List (Placed Span Token)} (hts : r.steps? ts = some r') :
    r.steps? (ts ++ us) = r'.steps? us := by
  induction ts generalizing r with
  | nil =>
    cases hts
    rfl
  | cons t ts ih =>
    cases hstep : r.step? t with
    | none =>
      rw [steps?, hstep] at hts
      cases hts
    | some next =>
      rw [steps?_cons hstep] at hts
      rw [List.cons_append, steps?_cons hstep, ih hts]

/-- **A run.** -/
theorem Follows.steps (hr : r.Follows p) (hts : r.steps? ts = some r') :
    r'.Follows (p ++ ts.map (·.value)) := by
  induction ts generalizing r p with
  | nil =>
    cases hts
    rwa [List.map_nil, List.append_nil]
  | cons t ts ih =>
    cases hstep : r.step? t with
    | none =>
      rw [steps?, hstep] at hts
      cases hts
    | some next =>
      rw [steps?_cons hstep] at hts
      rw [List.map_cons, List.append_cons]
      exact ih (hr.step hstep) hts

theorem Follows.sentence (hr : r.Follows p) (hφ : r.result? = some φ) :
    Sentence .formula p φ.bare := by
  obtain ⟨phase, level, outer⟩ := r
  obtain ⟨p₁, p₂, rfl, hp₁, hp₂⟩ := hr
  cases phase with
  | complete ψ =>
    cases hp₁ with
    | outermost =>
      cases hφ
      exact hp₂
    | inside _ _ => cases hφ
  | _ => cases hφ

end Reader

end GraphLogic
