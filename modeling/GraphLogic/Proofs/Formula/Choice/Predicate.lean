import GraphLogic.Proofs.Formula.Choice.Outcome

/-!
# Predicates by ordered choice

**Theorem (`parses_predicate`).** The parser of predicates agrees with the reader.

The alternatives overlap only where a predicate starts with a set variable, which can be a relation
or an operand. What a relation and a comparison miss behind it is missed at one place, and taken
together (`predicate_set`).
-/

namespace GraphLogic

variable {ts us used rest : List (Placed Span Token)} {r : Reader} {m : Miss}

namespace Grammar

open Parse Reader

/-! ## Symbols -/

/-- The sample of the variables. -/
def someVariable : Token := .var ⟨.element, "x"⟩

theorem missing_select {α : Type} {x : Variable} {g : Token → Option α}
    (hnone : ∀ t, (∀ x, t ≠ .var x) → g t = none)
    (h : ∀ u ∈ ts.head?, ∀ x, u.value ≠ .var x) :
    Missing ts [someVariable] ((select (.var x) g).run ts) := by
  cases ts with
  | nil => exact ⟨_, rfl, rfl, by rintro _ ⟨⟩⟩
  | cons u ts =>
    refine ⟨⟨u :: ts, [.var x]⟩, ?_, rfl, ?_⟩
    · simp only [select, hnone _ (h u rfl)]
    · rintro _ ⟨⟩
      refine ⟨?_, fun v => Iff.rfl⟩
      rw [List.mem_singleton]
      intro hs
      cases hu : u.value with
      | var y => exact h u rfl y hu
      | _ =>
        rw [hu] at hs
        cases hs

theorem takes_anyVariable (x : Placed Span Variable) (rest : List (Placed Span Token)) :
    Takes x rest (anyVariable.run (⟨x.place, .var x.value⟩ :: rest)) :=
  Takes.located (takes_select (g := Token.variable?) rfl _ _ _)

theorem missing_anyVariable (h : ∀ u ∈ ts.head?, ∀ x, u.value ≠ .var x) :
    Missing ts [someVariable] (anyVariable.run ts) := by
  refine Missing.located (missing_select (fun t ht => ?_) h)
  cases t with
  | var x => exact absurd rfl (ht x)
  | _ => rfl

theorem anyVariable_cases (ts : List (Placed Span Token)) :
    (∃ (x : Placed Span Variable) (rest : List (Placed Span Token)),
      ts = ⟨x.place, .var x.value⟩ :: rest ∧ Takes x rest (anyVariable.run ts)) ∨
      Missing ts [someVariable] (anyVariable.run ts) := by
  by_cases h : ∀ u ∈ ts.head?, ∀ x, u.value ≠ .var x
  · exact Or.inr (missing_anyVariable h)
  · push Not at h
    obtain ⟨⟨place, _⟩, hu, x, rfl⟩ := h
    obtain ⟨rest, rfl⟩ := List.head?_eq_some_iff.mp hu
    exact Or.inl ⟨⟨place, x⟩, rest, rfl, takes_anyVariable ⟨place, x⟩ rest⟩

theorem operator_cases (ts : List (Placed Span Token)) :
    (∃ (o : Placed Span Comparison) (rest : List (Placed Span Token)),
      ts = ⟨o.place, .comparison o.value⟩ :: rest ∧ Takes o rest (operator.run ts)) ∨
      Missing ts [.comparison .equal, .comparison .unequal] (operator.run ts) :=
  oneOf_cases (fun _ _ h => Token.comparison.inj h) (fun _ _ => Token.noConfusion)
    (fun o => by cases o <;> decide) ts

/-! ## Arguments -/

/-- A comma and an argument behind it. -/
def further : Parse (Placed Span Variable) := do
  just .comma ()
  anyVariable

theorem further_cases (ts : List (Placed Span Token)) :
    (∃ (comma : Span) (x : Placed Span Variable) (rest : List (Placed Span Token)),
      ts = ⟨comma, .comma⟩ :: ⟨x.place, .var x.value⟩ :: rest ∧ Takes x rest (further.run ts)) ∨
      Missing ts [.comma] (further.run ts) ∨
      ∃ comma us, ts = ⟨comma, .comma⟩ :: us ∧ Missing us [someVariable] (further.run ts) := by
  by_cases hcomma : ∀ u ∈ ts.head?, u.value ≠ .comma
  · exact Or.inr (Or.inl ((missing_just (fun _ => Token.noConfusion) hcomma ()).bind _))
  · push Not at hcomma
    obtain ⟨⟨comma, _⟩, hu, rfl⟩ := hcomma
    obtain ⟨us, rfl⟩ := List.head?_eq_some_iff.mp hu
    have hjust := takes_just .comma () comma us
    rcases anyVariable_cases us with ⟨x, rest, rfl, hx⟩ | ⟨m, hm, hrest, hfits⟩
    · exact Or.inl ⟨comma, x, rest, rfl, hjust.bind hx (by simp)⟩
    · have herror := hjust.bind_error (f := fun _ => anyVariable) hm (by rw [hrest])
      exact Or.inr (Or.inr ⟨comma, us, rfl, m, herror, hrest, hfits⟩)

theorem further_forward (ts : List (Placed Span Token)) : Forward further ts := by
  rcases further_cases ts with ⟨comma, x, rest, rfl, hx⟩ | ⟨m, hm, hrest, -⟩ |
    ⟨comma, us, rfl, m, hm, hrest, -⟩
  · exact Or.inl ⟨x, rest, hx, by grind⟩
  · exact Or.inr ⟨m, hm, by rw [hrest]⟩
  · exact Or.inr ⟨m, hm, by rw [hrest]; exact Nat.le_succ _⟩

theorem of_takes_further {x : Placed Span Variable} (h : Takes x rest (further.run ts)) :
    ∃ comma, ts = ⟨comma, .comma⟩ :: ⟨x.place, .var x.value⟩ :: rest := by
  rcases further_cases ts with ⟨comma, y, rest', rfl, hy⟩ | ⟨m, hm, -⟩ | ⟨comma, us, rfl, m, hm, -⟩
  · obtain ⟨rfl, rfl⟩ := h.unique hy
    exact ⟨comma, rfl⟩
  · exact absurd hm h.ne_error
  · exact absurd hm h.ne_error

theorem of_further_error (h : further.run ts = .error m) :
    m.rest = ts ∧ m.Fits [.comma] ∨
      ∃ comma, ts = ⟨comma, .comma⟩ :: m.rest ∧ m.Fits [someVariable] := by
  rcases further_cases ts with ⟨comma, y, rest', rfl, hy⟩ | ⟨n, hn, hrest, hfits⟩ |
    ⟨comma, us, rfl, n, hn, rfl, hfits⟩
  · exact absurd h hy.ne_error
  · rw [h] at hn
    cases hn
    exact Or.inl ⟨hrest, hfits⟩
  · rw [h] at hn
    cases hn
    exact Or.inr ⟨comma, rfl, hfits⟩

theorem exists_argumentTokens_of_reads {xs : List (Placed Span Variable)}
    (h : Reads further ts xs rest) :
    ∃ ys, ts = argumentTokens ys ++ rest ∧ ys.map (·.2) = xs := by
  induction h with
  | done ts => exact ⟨[], rfl, rfl⟩
  | @more ts ts' rest x xs hx _ ih =>
    obtain ⟨ys, hys, rfl⟩ := ih
    obtain ⟨comma, rfl⟩ := of_takes_further hx
    exact ⟨(comma, x) :: ys, by rw [hys]; rfl, rfl⟩

/-- The arguments behind the parenthesis that opens them. -/
theorem opened_cases (ts : List (Placed Span Token)) :
    (∃ (x : Placed Span Variable) (xs : List (Span × Placed Span Variable)) (closed : Span)
      (rest : List (Placed Span Token)),
      ts = ⟨x.place, .var x.value⟩ :: (argumentTokens xs ++ ⟨closed, .rightParen⟩ :: rest) ∧
        Takes (x :: xs.map (·.2)) rest
          (((separated anyVariable .comma).before .rightParen).run ts)) ∨
      ∃ m, ((separated anyVariable .comma).before .rightParen).run ts = .error m ∧
        ∀ (r : Reader) (s : Placed Span Relation), r.phase = .argument s [] → r.Misses ts m := by
  rcases anyVariable_cases ts with ⟨x, us, rfl, hx⟩ | hmissing
  · obtain ⟨xs, rest, m, hmany, hm, hle, hreads⟩ :=
      many_spec fun vs (_ : vs.length ≤ us.length) => further_forward vs
    obtain ⟨ys, rfl, rfl⟩ := exists_argumentTokens_of_reads hreads
    have hlast : m.rest.length ≤ rest.length := (further_forward rest).length_le hm
    have hlist : (separated anyVariable .comma).run
        (⟨x.place, .var x.value⟩ :: (argumentTokens ys ++ rest)) =
        .ok ⟨x :: ys.map (·.2), rest, some m⟩ :=
      bind_many hx hmany (Nat.le_trans hlast hle)
    rcases before_cases hlist .rightParen with ⟨closed, rest', rfl, htakes⟩ | ⟨hclosed, herror⟩
    · refine Or.inl ⟨x, ys, closed, rest', rfl, htakes ?_⟩
      rcases of_further_error hm with ⟨hrest, -⟩ | ⟨comma, h, -⟩
      · rw [hrest]
        exact Nat.lt_succ_self _
      · cases h
    · refine Or.inr ⟨_, herror, ?_⟩
      rintro ⟨phase, level, outer⟩ s rfl
      let first : Reader := ⟨.separator s [x], level, outer⟩
      let last : Reader := ⟨.separator s (x :: ys.map (·.2)), level, outer⟩
      have hfirst : Reader.step? ⟨.argument s [], level, outer⟩ ⟨x.place, .var x.value⟩ =
          some first := rfl
      have hsteps : Reader.steps? ⟨.argument s [], level, outer⟩
          (⟨x.place, .var x.value⟩ :: argumentTokens ys) = some last := by
        rw [steps?_cons hfirst]
        exact steps?_argumentTokens (r := first) rfl ys
      refine Misses.of_steps hsteps ?_ rfl
      refine misses_furthest [.comma] (fun _ => Token.noConfusion) hclosed
        (fun u => Iff.rfl) ?_
      rcases of_further_error hm with hcomma | ⟨comma, hcomma, hfits⟩
      · exact Or.inl hcomma
      · refine Or.inr ⟨by rw [hcomma]; exact Nat.lt_succ_self _, ?_⟩
        rw [hcomma]
        exact Misses.of_step rfl (misses_of_fits rfl hfits)
  · obtain ⟨m, hm, hrest, hfits⟩ := (hmissing.bind _).bind _
    refine Or.inr ⟨m, hm, ?_⟩
    rintro ⟨phase, level, outer⟩ s rfl
    exact misses_of_fits hrest hfits

theorem arguments_cases (ts : List (Placed Span Token)) :
    (∃ (opened : Span) (x : Placed Span Variable) (xs : List (Span × Placed Span Variable))
      (closed : Span) (rest : List (Placed Span Token)),
      ts = ⟨opened, .leftParen⟩ :: ⟨x.place, .var x.value⟩ ::
        (argumentTokens xs ++ ⟨closed, .rightParen⟩ :: rest) ∧
        Takes (x :: xs.map (·.2)) rest (arguments.run ts)) ∨
      Missing ts [.leftParen] (arguments.run ts) ∨
      ∃ opened us m, ts = ⟨opened, .leftParen⟩ :: us ∧ arguments.run ts = .error m ∧
        ∀ (r : Reader) (s : Placed Span Relation), r.phase = .argument s [] → r.Misses us m := by
  by_cases hopen : ∀ u ∈ ts.head?, u.value ≠ .leftParen
  · exact Or.inr (Or.inl ((missing_just (fun _ => Token.noConfusion) hopen ()).bind _))
  · push Not at hopen
    obtain ⟨⟨opened, _⟩, hu, rfl⟩ := hopen
    obtain ⟨us, rfl⟩ := List.head?_eq_some_iff.mp hu
    have hjust := takes_just .leftParen () opened us
    rcases opened_cases us with ⟨x, xs, closed, rest, rfl, hxs⟩ | ⟨m, hm, hmisses⟩
    · exact Or.inl ⟨opened, x, xs, closed, rest, rfl, hjust.bind hxs (by grind)⟩
    · refine Or.inr (Or.inr ⟨opened, us, m, rfl, hjust.bind_error hm ?_, hmisses⟩)
      exact (hmisses { phase := .argument ⟨⟨0, 0⟩, .edge⟩ [] } _ rfl).length_le

/-! ## Relations -/

section

variable {relation : Parse (Placed Span Relation)} {s : Placed Span Relation}

theorem takes_applied {xs : List (Placed Span Variable)} (hs : Takes s us (relation.run ts))
    (hxs : Takes xs rest (arguments.run us)) (hle : rest.length ≤ us.length) :
    Takes (fun place => .relation place s xs) rest ((applied relation).run ts) :=
  hs.bind (hxs.bind (takes_pure _ rest) (Nat.le_refl _)) hle

theorem applied_error (hs : Takes s us (relation.run ts)) (hm : arguments.run us = .error m)
    (hle : m.rest.length ≤ us.length) : (spanning (applied relation)).run ts = .error m :=
  mapWithSpan_error (Takes.bind_error (f := fun s => arguments >>= fun xs =>
    pure fun place => Formula.relation place s xs) hs (bind_error hm _) hle)

/-- What a relation comes to behind its symbol. -/
theorem applied_cases (hts : ts = ⟨s.place, s.value.token⟩ :: us)
    (hs : Takes s us (relation.run ts)) :
    (∃ opened vs, us = ⟨opened, .leftParen⟩ :: vs) ∧
        Advances .quantified ts us.length ((spanning (applied relation)).run ts) ∨
      Missing us [.leftParen] ((spanning (applied relation)).run ts) := by
  rcases arguments_cases us with ⟨opened, x, xs, closed, rest, rfl, hxs⟩ | ⟨m, hm, hrest, hfits⟩ |
    ⟨opened, vs, m, rfl, hm, hmisses⟩
  · let used : List (Placed Span Token) :=
      ⟨s.place, s.value.token⟩ :: ⟨opened, .leftParen⟩ :: ⟨x.place, .var x.value⟩ ::
        (argumentTokens xs ++ [⟨closed, .rightParen⟩])
    have hφ : Phrase .quantified used (.relation (s.place.upTo closed) s (x :: xs.map (·.2))) :=
      .related
    have hplace : Span.hull (places used) = s.place.upTo closed := by
      simp only [used, places_cons, places_append, places_nil]
      exact Span.hull_cons_concat s.place closed (opened :: x.place :: places _)
    have hsplit : ts = used ++ rest := by simp [hts, used]
    refine Or.inl ⟨⟨_, _, rfl⟩, Advances.of_takes hsplit (takes_applied hs hxs ?_) ?_ ?_⟩
    · grind
    · grind
    · rw [hplace]
      exact hφ
  · exact Or.inr ⟨m, applied_error hs hm (Nat.le_of_eq (congrArg _ hrest)), hrest, hfits⟩
  · have hle : m.rest.length ≤ vs.length :=
      (hmisses { phase := .argument ⟨⟨0, 0⟩, .edge⟩ [] } _ rfl).length_le
    refine Or.inl ⟨⟨opened, vs, rfl⟩, Or.inr ⟨m, applied_error hs hm (Nat.le_succ_of_le hle),
      Nat.lt_succ_of_le hle, fun r hr => ?_⟩⟩
    have hsteps := steps?_symbol hr s.value s.place opened []
    exact Misses.of_steps hsteps (hmisses _ ⟨s.place, s.value⟩ rfl) hts

end

/-! ## Comparisons -/

section

variable {x : Placed Span Variable}

/-- The operator and the right operand of a comparison. -/
def compared (x : Placed Span Variable) : Parse (Span → Formula Span) := do
  let o ← operator
  let y ← anyVariable
  return fun place => .comparison place o x y

theorem comparison_error (hx : Takes x us (anyVariable.run ts))
    (hm : (compared x).run us = .error m) (hle : m.rest.length ≤ us.length) :
    (spanning comparison).run ts = .error m :=
  mapWithSpan_error (Takes.bind_error (f := compared) hx hm hle)

theorem compared_error {o : Placed Span Comparison} (ho : Takes o us (operator.run ts))
    (hm : anyVariable.run us = .error m) (hle : m.rest.length ≤ us.length) :
    (compared x).run ts = .error m :=
  Takes.bind_error (f := fun o => anyVariable >>= fun y =>
    pure fun place => Formula.comparison place o x y) ho (bind_error hm _) hle

/-- What a comparison comes to behind its left operand. -/
theorem comparison_cases (hts : ts = ⟨x.place, .var x.value⟩ :: us) :
    (∃ place o vs, us = ⟨place, .comparison o⟩ :: vs) ∧
        Advances .quantified ts us.length ((spanning comparison).run ts) ∨
      Missing us [.comparison .equal, .comparison .unequal] ((spanning comparison).run ts) := by
  have hx := takes_anyVariable x us
  rw [← hts] at hx
  rcases operator_cases us with ⟨o, vs, rfl, ho⟩ | ⟨m, hm, hrest, hfits⟩
  · rcases anyVariable_cases vs with ⟨y, rest, rfl, hy⟩ | ⟨m, hm, rfl, hfits⟩
    · have hread : Takes (fun place => .comparison place o x y) rest (comparison.run ts) :=
        hx.bind (ho.bind (hy.bind (takes_pure _ rest) (Nat.le_refl _)) (by simp)) (by grind)
      refine Or.inl ⟨⟨_, _, _, rfl⟩, Advances.of_takes ?_ hread (by grind) .compared⟩
      exact hts
    · refine Or.inl ⟨⟨_, _, _, rfl⟩, Or.inr ⟨m, ?_, Nat.lt_succ_self _, fun r hr => ?_⟩⟩
      · exact comparison_error hx (compared_error ho hm (Nat.le_refl _)) (Nat.le_succ _)
      · exact Misses.of_steps (steps?_compared hr x o []) (misses_of_fits rfl hfits) hts
  · have hle : m.rest.length ≤ us.length := Nat.le_of_eq (congrArg _ hrest)
    exact Or.inr ⟨m, comparison_error hx (bind_error hm _) hle, hrest, hfits⟩

end

/-! ## All predicates -/

theorem predicate_eq :
    predicate = (spanning edge <|> spanning membership <|> spanning comparison) := by
  unfold predicate spanning
  rw [mapWithSpan_orElse, mapWithSpan_orElse]

theorem missing_edge (h : ∀ u ∈ ts.head?, u.value ≠ .edge) :
    Missing ts [.edge] ((spanning edge).run ts) :=
  ((missing_just (fun _ => Token.noConfusion) h Relation.edge).located.bind _).mapWithSpan

theorem missing_membership (h : ∀ u ∈ ts.head?, ∀ x, u.value ≠ .var x) :
    Missing ts [someVariable] ((spanning membership).run ts) := by
  refine (Missing.bind (Missing.located (missing_select (fun t ht => ?_) h)) _).mapWithSpan
  cases t with
  | var x => exact absurd rfl (ht x)
  | _ => rfl

theorem missing_comparison (h : ∀ u ∈ ts.head?, ∀ x, u.value ≠ .var x) :
    Missing ts [someVariable] ((spanning comparison).run ts) :=
  ((missing_anyVariable h).bind _).mapWithSpan

theorem missing_predicate (hedge : ∀ u ∈ ts.head?, u.value ≠ .edge)
    (hvar : ∀ u ∈ ts.head?, ∀ x, u.value ≠ .var x) :
    Missing ts [.edge, someVariable] (predicate.run ts) := by
  rw [predicate_eq]
  refine ((missing_edge hedge).orElse ((missing_membership hvar).orElse
    (missing_comparison hvar))).congr fun u => ?_
  simp

section

variable (place : Span) (name : String) (us : List (Placed Span Token))

theorem predicate_edge :
    Advances .quantified (⟨place, .edge⟩ :: us) (us.length + 1)
      (predicate.run (⟨place, .edge⟩ :: us)) := by
  rw [predicate_eq]
  have hvar : ∀ u ∈ (⟨place, .edge⟩ :: us : List (Placed Span Token)).head?,
      ∀ x, u.value ≠ .var x := by
    rintro _ ⟨⟩ x
    exact Token.noConfusion
  obtain ⟨n, hn, hrest, -⟩ := (missing_membership hvar).orElse (missing_comparison hvar)
  refine Advances.orElse_left ?_ hn (by rw [hrest]; rfl)
  have hs : Takes ⟨place, .edge⟩ us
      ((located (just .edge Relation.edge)).run (⟨place, .edge⟩ :: us)) :=
    (takes_just _ _ _ _).located
  rcases applied_cases rfl hs with ⟨-, h⟩ | h
  · exact h.mono (Nat.le_succ _)
  · exact Advances.of_missing h fun r hr => ⟨_, step?_eq_begin? hr Token.noConfusion, rfl⟩

theorem missing_edge_variable (x : Variable) :
    Missing (⟨place, .var x⟩ :: us) [.edge] ((spanning edge).run (⟨place, .var x⟩ :: us)) := by
  refine missing_edge ?_
  rintro _ ⟨⟩
  exact Token.noConfusion

theorem predicate_element :
    Advances .quantified (⟨place, .var ⟨.element, name⟩⟩ :: us) (us.length + 1)
      (predicate.run (⟨place, .var ⟨.element, name⟩⟩ :: us)) := by
  rw [predicate_eq]
  obtain ⟨n, hn, hrest, -⟩ := missing_edge_variable place us ⟨.element, name⟩
  have hmembership : (spanning membership).run (⟨place, .var ⟨.element, name⟩⟩ :: us) =
      .error ⟨⟨place, .var ⟨.element, name⟩⟩ :: us, [.var ⟨.element, ""⟩]⟩ := rfl
  refine Advances.orElse_right hn (by rw [hrest]; rfl)
    (Advances.orElse_right hmembership (Nat.le_refl _) ?_)
  have hts : (⟨place, .var ⟨.element, name⟩⟩ :: us : List (Placed Span Token)) = _ :: us := rfl
  rcases comparison_cases (x := ⟨place, ⟨.element, name⟩⟩) hts with ⟨-, h⟩ | h
  · exact h.mono (Nat.le_succ _)
  · exact Advances.of_missing h fun r hr => ⟨_, step?_eq_begin? hr Token.noConfusion, rfl⟩

/-- Behind a set variable, a relation and a comparison are both possible. -/
theorem predicate_set :
    Advances .quantified (⟨place, .var ⟨.set, name⟩⟩ :: us) (us.length + 1)
      (predicate.run (⟨place, .var ⟨.set, name⟩⟩ :: us)) := by
  rw [predicate_eq]
  obtain ⟨n, hn, hrest, -⟩ := missing_edge_variable place us ⟨.set, name⟩
  refine Advances.orElse_right hn (by rw [hrest]; rfl) ?_
  have hs : Takes ⟨place, .set name⟩ us
      ((located (select (.var ⟨.element, ""⟩) Token.setRelation?)).run
        (⟨place, .var ⟨.set, name⟩⟩ :: us)) :=
    (takes_select (g := Token.setRelation?) rfl _ _ _).located
  have hts : (⟨place, .var ⟨.set, name⟩⟩ :: us : List (Placed Span Token)) = _ :: us := rfl
  have hmembership := applied_cases rfl hs
  rcases hmembership with ⟨⟨opened, vs, rfl⟩, h⟩ | hmembership
  · rcases comparison_cases (x := ⟨place, ⟨.set, name⟩⟩) hts with ⟨⟨_, _, _, h'⟩, -⟩ |
      ⟨n, hn, hrest, -⟩
    · cases h'
    · exact (Advances.orElse_left h hn (by rw [hrest])).mono (Nat.le_succ _)
  · rcases comparison_cases (x := ⟨place, ⟨.set, name⟩⟩) hts with ⟨-, h⟩ | hcomparison
    · obtain ⟨m, hm, hrest, -⟩ := hmembership
      exact (Advances.orElse_right hm (by rw [hrest]) h).mono (Nat.le_succ _)
    · exact Advances.of_missing (hmembership.orElse hcomparison)
        fun r hr => ⟨_, step?_eq_begin? hr Token.noConfusion, rfl⟩

end

theorem parses_predicate (ts : List (Placed Span Token)) :
    Parses .quantified [.edge, someVariable] ts (predicate.run ts) := by
  by_cases h : ∀ u ∈ ts.head?, u.value ≠ .edge ∧ ∀ x, u.value ≠ .var x
  · exact Or.inr (missing_predicate (fun u hu => (h u hu).1) fun u hu => (h u hu).2)
  · left
    cases ts with
    | nil => exact absurd (by rintro _ ⟨⟩) h
    | cons u us =>
      obtain ⟨place, value⟩ := u
      cases value with
      | edge => exact ⟨⟨_, rfl, List.mem_cons_self⟩, predicate_edge place us⟩
      | var x =>
        refine ⟨⟨_, rfl, List.mem_cons_of_mem _ (List.mem_singleton_self _)⟩, ?_⟩
        obtain ⟨_ | _, name⟩ := x
        · exact predicate_element place name us
        · exact predicate_set place name us
      | _ =>
        refine absurd ?_ h
        rintro _ ⟨⟩
        exact ⟨Token.noConfusion, fun _ => Token.noConfusion⟩

end Grammar

end GraphLogic
