import GraphLogic.Proofs.Formula.Reading

/-!
# The reader accepts what can become a formula

**Theorem (`Reader.admits_iff`).** The tokens that can come next in a state are exactly those with
which the tokens read so far are still the beginning of a formula with the end of the input behind
it (`Viable`).

That a token of a formula can come next is `Sentence.steps`, for the tokens of the whole formula.
For the converse, every state can be completed (`Reader.exists_result`): a predicate that was begun
takes at most four more tokens, and then there is one parenthesis to close for each outer level.
-/

namespace GraphLogic

variable {p : List Token} {r : Reader} {t : Token} {ts : List (Placed Span Token)}

/-- The tokens begin a formula with the end of the input behind it. -/
def Viable (p : List Token) : Prop := ∃ q φ, Sentence .formula q φ ∧ p <+: q ++ [.endOfInput]

theorem Viable.of_isPrefix {q : List Token} (hq : Viable q) (hp : p <+: q) : Viable p := by
  obtain ⟨s, φ, hs, hqs⟩ := hq
  exact ⟨s, φ, hs, hp.trans hqs⟩

/-! ## Sentences hold no end of the input -/

theorem endOfInput_not_mem_varList (xs : List Variable) : .endOfInput ∉ varList xs := by
  cases xs <;> simp [varList]

theorem Sentence.endOfInput_not_mem {c : Category} {φ : Formula Unit} (h : Sentence c p φ) :
    .endOfInput ∉ p := by
  induction h with
  | related hxs =>
    rename_i s xs
    cases s <;> simp [Relation.token, endOfInput_not_mem_varList]
  | compared => simp
  | operand _ ih => exact ih
  | unnegated _ ih => exact ih
  | connected _ _ ihp ihq => simp [ihp, ihq]
  | negated _ ih => simp [ih]
  | bound _ ih => simp [ih]
  | parenthesized _ ih => simp [ih]

/-! ## Every state can be completed -/

/-- A predicate, to stand where an operand or a body has to come. -/
def filler : List Token :=
  [.var ⟨.element, "x"⟩, .comparison .equal, .var ⟨.element, "x"⟩]

/-- Tokens that complete what was begun on the innermost level. -/
def Phase.completion : Phase → List Token
  | operand | body => filler
  | binder _ => .var ⟨.element, "x"⟩ :: filler
  | opening _ => [.leftParen, .var ⟨.element, "x"⟩, .rightParen]
  | afterSet _ | afterElement _ => [.comparison .equal, .var ⟨.element, "x"⟩]
  | compared _ _ => [.var ⟨.element, "x"⟩]
  | argument _ _ => [.var ⟨.element, "x"⟩, .rightParen]
  | separator _ _ => [.rightParen]
  | complete _ => []

/-- A token at no place in particular. -/
def Token.unplaced (t : Token) : Placed Span Token := ⟨⟨0, 0⟩, t⟩

theorem map_value_unplaced (p : List Token) : (p.map Token.unplaced).map (·.value) = p := by
  rw [List.map_map]
  exact List.map_id p

namespace Reader

theorem exists_complete (r : Reader) :
    ∃ φ l, r.steps? (r.phase.completion.map Token.unplaced) =
      some ⟨.complete φ, l, r.outer⟩ := by
  obtain ⟨phase, level, outer⟩ := r
  cases phase <;> exact ⟨_, _, rfl⟩

theorem exists_result (r : Reader) :
    ∃ (p : List Token) (r' : Reader),
      r.steps? (p.map Token.unplaced) = some r' ∧ r'.result?.isSome = true := by
  obtain ⟨phase, level, outer⟩ := r
  induction outer generalizing phase level with
  | nil =>
    obtain ⟨φ, l, hsteps⟩ := exists_complete ⟨phase, level, []⟩
    exact ⟨_, _, hsteps, rfl⟩
  | cons o outer ih =>
    obtain ⟨φ, l, hsteps⟩ := exists_complete ⟨phase, level, o :: outer⟩
    let closed : Reader := fill { level := o.2, outer } (φ.moveTo (o.1.upTo ⟨0, 0⟩))
    obtain ⟨p, r', hp, hr'⟩ := ih closed.phase closed.level
    refine ⟨phase.completion ++ .rightParen :: p, r', ?_, hr'⟩
    rw [List.map_append, steps?_append hsteps]
    exact hp

/-! ## What can come next -/

/-- Whether there is a next state does not depend on the place of the token. -/
theorem isSome_step? (r : Reader) (t : Token) (place place' : Span) :
    (r.step? ⟨place, t⟩).isSome = (r.step? ⟨place', t⟩).isSome := by
  obtain ⟨phase, level, outer⟩ := r
  cases phase <;> cases t <;> try rfl
  case operand.var x => obtain ⟨_ | _, _⟩ := x <;> rfl
  case body.var x => obtain ⟨_ | _, _⟩ := x <;> rfl
  case complete.rightParen => cases outer <;> rfl

theorem admits_eq (ht : t ≠ .endOfInput) (place : Span) :
    r.admits t = (r.step? ⟨place, t⟩).isSome := by
  rw [isSome_step? r t place ⟨0, 0⟩]
  unfold admits
  split
  · exact absurd rfl ht
  · rfl

/-- A token that can come next leaves the beginning of a formula. -/
theorem viable_of_admits (hr : ({} : Reader).steps? ts = some r) (ht : r.admits t = true) :
    Viable (ts.map (·.value) ++ [t]) := by
  by_cases hend : t = .endOfInput
  · subst hend
    obtain ⟨φ, hφ⟩ := Option.isSome_iff_exists.mp ht
    exact ⟨_, _, (follows_start.steps hr).sentence hφ, List.prefix_rfl⟩
  · rw [admits_eq hend ⟨0, 0⟩] at ht
    obtain ⟨next, hnext⟩ := Option.isSome_iff_exists.mp ht
    obtain ⟨p, r', hp, hr'⟩ := next.exists_result
    obtain ⟨φ, hφ⟩ := Option.isSome_iff_exists.mp hr'
    have hall : ({} : Reader).steps? (ts ++ t.unplaced :: p.map Token.unplaced) = some r' := by
      rw [steps?_append hr, Token.unplaced, steps?_cons hnext, hp]
    have hsentence := (follows_start.steps hall).sentence hφ
    rw [List.map_append, List.map_cons, map_value_unplaced, List.nil_append,
      List.append_cons] at hsentence
    exact ⟨_, _, hsentence, (List.prefix_append _ p).trans (List.prefix_append ..)⟩

/-- A token that continues a formula can come next. -/
theorem admits_of_viable (hr : ({} : Reader).steps? ts = some r)
    (ht : Viable (ts.map (·.value) ++ [t])) : r.admits t = true := by
  obtain ⟨q, φ, hq, hprefix⟩ := ht
  rcases List.prefix_concat_iff.mp hprefix with hwhole | ⟨rest, hrest⟩
  · obtain ⟨hts, ht⟩ := List.append_inj' hwhole rfl
    cases ht
    obtain ⟨ψ, -, hψ⟩ := hq.steps (r := {}) ⟨rfl, rfl⟩ hts
    rw [hr] at hψ
    cases hψ
    rfl
  · have hend : t ≠ .endOfInput := by
      rintro rfl
      exact hq.endOfInput_not_mem (by simp [← hrest])
    have hvalues : (ts ++ t.unplaced :: rest.map Token.unplaced).map (·.value) = q := by
      rw [List.map_append, List.map_cons, map_value_unplaced, ← hrest, List.append_assoc]
      rfl
    obtain ⟨ψ, -, hψ⟩ := hq.steps (r := {}) ⟨rfl, rfl⟩ hvalues
    rw [steps?_append hr, steps?] at hψ
    rw [admits_eq hend ⟨0, 0⟩]
    cases hstep : r.step? ⟨⟨0, 0⟩, t⟩ with
    | none =>
      rw [Token.unplaced, hstep] at hψ
      cases hψ
    | some next => rfl

theorem admits_iff (hr : ({} : Reader).steps? ts = some r) (t : Token) :
    r.admits t = true ↔ Viable (ts.map (·.value) ++ [t]) :=
  ⟨viable_of_admits hr, admits_of_viable hr⟩

theorem step?_endOfInput (r : Reader) (place : Span) : r.step? ⟨place, .endOfInput⟩ = none := by
  obtain ⟨phase, level, outer⟩ := r
  cases phase <;> rfl

theorem ne_endOfInput_of_step {t : Placed Span Token} {r' : Reader} (h : r.step? t = some r') :
    t.value ≠ .endOfInput := by
  obtain ⟨place, value⟩ := t
  rintro rfl
  rw [step?_endOfInput] at h
  cases h

/-- Something can always come next. -/
theorem exists_admits (r : Reader) : ∃ t, r.admits t = true := by
  obtain ⟨p, r', hp, hr'⟩ := r.exists_result
  cases p with
  | nil =>
    cases hp
    exact ⟨.endOfInput, hr'⟩
  | cons t p =>
    rw [List.map_cons, steps?] at hp
    cases hstep : r.step? t.unplaced with
    | none =>
      rw [hstep] at hp
      cases hp
    | some next =>
      have hend : t ≠ .endOfInput := ne_endOfInput_of_step hstep
      refine ⟨t, ?_⟩
      rw [admits_eq hend ⟨0, 0⟩]
      exact Option.isSome_iff_exists.mpr ⟨next, hstep⟩

end Reader

end GraphLogic
