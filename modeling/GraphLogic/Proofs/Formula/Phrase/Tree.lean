import GraphLogic.Proofs.Formula.Phrase
import GraphLogic.Proofs.Text.Span

/-!
# The tree of a phrase

Everything in the tree of a phrase can be found among its tokens.

- A node reaches from its first token to its last (`Phrase.place_eq`).
- The parts of a node are groups of its tokens, which are apart and in order (`Phrase.grouped`).
- Each node is the tree of a phrase, whose tokens are a run of all tokens (`Phrase.of_mem_nodes`).
- The symbols are the tokens other than parentheses and commas (`Phrase.symbols_eq`).

All of it goes along the derivation. Moving all tokens of a phrase to the left moves the tree
with them (`Phrase.shiftLeft`).
-/

namespace GraphLogic

variable {c : Category} {φ : Formula Span} {ts : List (Placed Span Token)}

/-! ## The places of the nodes -/

/-- The places of some tokens. -/
def places (ts : List (Placed Span Token)) : List Span := ts.map (·.place)

@[simp] theorem places_nil : places [] = [] := rfl

@[simp] theorem places_cons (t : Placed Span Token) (ts : List (Placed Span Token)) :
    places (t :: ts) = t.place :: places ts := rfl

@[simp] theorem places_append (ts us : List (Placed Span Token)) :
    places (ts ++ us) = places ts ++ places us := List.map_append

theorem Phrase.formula (h : Phrase c ts φ) : Phrase .formula ts φ := by
  cases c with
  | formula => exact h
  | unary => exact .operand h
  | quantified => exact .operand (.unnegated h)

theorem Phrase.ne_nil (h : Phrase c ts φ) : ts ≠ [] := by
  induction h with
  | operand _ ih => exact ih
  | unnegated _ ih => exact ih
  | connected _ _ _ _ => simp
  | _ => exact List.cons_ne_nil _ _

theorem Phrase.places_ne_nil (h : Phrase c ts φ) : places ts ≠ [] := fun hnil =>
  h.ne_nil (List.map_eq_nil_iff.mp hnil)

theorem Formula.place_moveTo (φ : Formula Span) (p : Span) : (φ.moveTo p).place = p := by
  cases φ <;> rfl

/-- A node that cannot be a binary formula reaches from its first token to its last, wherever the
tokens stand. -/
theorem Phrase.place_eq_hull (h : Phrase c ts φ) (hc : c ≠ .formula) :
    φ.place = Span.hull (places ts) := by
  induction h with
  | operand _ _ => exact absurd rfl hc
  | connected _ _ _ _ => exact absurd rfl hc
  | unnegated _ ih => exact ih Category.noConfusion
  | @negated ts φ sign h ih =>
    rw [places_cons, Span.hull_cons _ h.places_ne_nil, ← ih Category.noConfusion]
    rfl
  | @bound ts φ q x h ih =>
    rw [places_cons, places_cons, Span.hull_cons _ (List.cons_ne_nil _ _),
      Span.hull_cons _ h.places_ne_nil, ← ih Category.noConfusion]
    rfl
  | @related r opened closed x xs =>
    simp only [places_cons, places_append, places_nil]
    exact (Span.hull_cons_concat r.place closed (opened :: x.place :: places _)).symm
  | compared => rfl
  | @parenthesized ts φ opened closed h _ =>
    simp only [places_cons, places_append, places_nil]
    rw [Formula.place_moveTo, Span.hull_cons_concat]

/-- A node reaches from its first token to its last. -/
theorem Phrase.place_eq (h : Phrase c ts φ) (ho : Span.InOrder (places ts)) :
    φ.place = Span.hull (places ts) := by
  cases c with
  | unary => exact h.place_eq_hull Category.noConfusion
  | quantified => exact h.place_eq_hull Category.noConfusion
  | formula =>
    generalize hc : Category.formula = c at h
    induction h with
    | operand h _ => exact h.place_eq_hull Category.noConfusion
    | @connected ts us φ ψ k hφ hψ ihφ _ =>
      rw [places_append, places_cons] at ho ⊢
      obtain ⟨hts, hus, hcross⟩ := ho.split
      rw [Span.hull_append hφ.places_ne_nil (List.cons_ne_nil _ _),
        Span.hull_cons _ hψ.places_ne_nil]
      show φ.place.cover ψ.place = (Span.hull (places ts)).upTo (Span.hull (places us))
      rw [ihφ hts rfl, hψ.place_eq_hull Category.noConfusion,
        hts.cover_hull hus hφ.places_ne_nil hψ.places_ne_nil hcross]
    | _ => cases hc

/-! ## The parts of the nodes -/

/-- The places of the symbols and formulas that a node is made of. -/
def Formula.parts : Formula Span → List Span
  | quantified _ q x φ => [q.place, x.place, φ.place]
  | binary _ c φ ψ => [φ.place, c.place, ψ.place]
  | negation _ sign φ => [sign, φ.place]
  | comparison _ o x y => [x.place, o.place, y.place]
  | relation _ r xs => r.place :: xs.map (·.place)

theorem Formula.parts_moveTo (φ : Formula Span) (p : Span) : (φ.moveTo p).parts = φ.parts := by
  cases φ <;> rfl

theorem arguments_sublist (xs : List (Span × Placed Span Variable)) :
    (xs.map (·.2.place)).Sublist (places (argumentTokens xs)) := by
  induction xs with
  | nil => exact .slnil
  | cons x xs ih => exact .cons _ (ih.cons_cons _)

/-- Each span is the hull of a group of its own. -/
theorem exists_singletons (ps : List Span) :
    ∃ pss : List (List Span), pss.flatten = ps ∧ (∀ qs ∈ pss, qs ≠ []) ∧
      pss.map Span.hull = ps := by
  refine ⟨ps.map ([·]), ?_, by simp, ?_⟩
  · exact List.flatMap_singleton' ps
  · rw [List.map_map]
    exact List.map_id ps

/-- The tokens of a node fall into groups in such a way that each part of the node is one of
them. -/
theorem Phrase.grouped (h : Phrase c ts φ) (ho : Span.InOrder (places ts)) :
    ∃ pss : List (List Span), pss.flatten = places ts ∧ (∀ ps ∈ pss, ps ≠ []) ∧
      φ.parts.Sublist (pss.map Span.hull) := by
  induction h with
  | operand _ ih => exact ih ho
  | unnegated _ ih => exact ih ho
  | @connected ts us φ ψ k hφ hψ _ _ =>
    rw [places_append, places_cons] at ho ⊢
    obtain ⟨hts, hus, -⟩ := ho.split
    refine ⟨[places ts, [k.place], places us], by simp, ?_, ?_⟩
    · simp [hφ.places_ne_nil, hψ.places_ne_nil]
    · show [φ.place, k.place, ψ.place].Sublist _
      rw [hφ.place_eq hts, hψ.place_eq hus]
      exact List.Sublist.refl _
  | @negated ts φ sign h _ =>
    refine ⟨[[sign], places ts], by simp, by simp [h.places_ne_nil], ?_⟩
    show [sign, φ.place].Sublist _
    rw [h.place_eq ho.tail]
    exact List.Sublist.refl _
  | @bound ts φ q x h _ =>
    refine ⟨[[q.place], [x.place], places ts], by simp, by simp [h.places_ne_nil], ?_⟩
    show [q.place, x.place, φ.place].Sublist _
    rw [h.place_eq ho.tail.tail]
    exact List.Sublist.refl _
  | @related r opened closed x xs =>
    simp only [places_cons, places_append, places_nil]
    obtain ⟨pss, hflatten, hne, hhulls⟩ := exists_singletons
      (r.place :: opened :: x.place :: (places (argumentTokens xs) ++ [closed]))
    refine ⟨pss, hflatten, hne, ?_⟩
    rw [hhulls]
    have hargs := (arguments_sublist xs).trans (List.sublist_append_left _ [closed])
    show (r.place :: x.place :: (xs.map (·.2)).map (·.place)).Sublist _
    rw [List.map_map]
    exact ((hargs.cons_cons x.place).cons opened).cons_cons r.place
  | @compared x y o =>
    exact ⟨[[x.place], [o.place], [y.place]], rfl, by simp, List.Sublist.refl _⟩
  | @parenthesized ts φ opened closed _ ih =>
    simp only [places_cons, places_append, places_nil] at ho ⊢
    obtain ⟨pss, hflatten, hne, hparts⟩ := ih ho.tail.split.1
    refine ⟨[opened] :: (pss ++ [[closed]]), ?_, ?_, ?_⟩
    · simp [hflatten]
    · intro ps hps
      rcases List.mem_cons.mp hps with rfl | hps
      · exact List.cons_ne_nil _ _
      rcases List.mem_append.mp hps with hps | hps
      · exact hne ps hps
      · rw [List.mem_singleton.mp hps]
        exact List.cons_ne_nil _ _
    · rw [Formula.parts_moveTo, List.map_cons, List.map_append]
      exact (hparts.trans (List.sublist_append_left ..)).cons _

/-! ## The nodes -/

/-- The formula and the formulas inside it, each before those inside it. -/
def Formula.nodes {σ : Type} : Formula σ → List (Formula σ)
  | quantified p q x φ => quantified p q x φ :: φ.nodes
  | binary p c φ ψ => binary p c φ ψ :: (φ.nodes ++ ψ.nodes)
  | negation p s φ => negation p s φ :: φ.nodes
  | comparison p o x y => [comparison p o x y]
  | relation p r xs => [relation p r xs]

theorem Formula.mem_nodes_self {σ : Type} (φ : Formula σ) : φ ∈ φ.nodes := by
  cases φ <;> exact List.mem_cons_self

theorem Formula.mem_nodes_moveTo {n : Formula Span} {p : Span} (hn : n ∈ (φ.moveTo p).nodes) :
    n = φ.moveTo p ∨ n ∈ φ.nodes := by
  cases φ <;> simp only [moveTo, nodes, List.mem_cons] at hn ⊢ <;> tauto

/-- Each node is the tree of a run of the tokens. -/
theorem Phrase.of_mem_nodes {n : Formula Span} (h : Phrase c ts φ) (hn : n ∈ φ.nodes) :
    ∃ us, us <:+: ts ∧ Phrase .formula us n := by
  induction h with
  | operand _ ih => exact ih hn
  | unnegated _ ih => exact ih hn
  | @connected ts us φ ψ k hφ hψ ihφ ihψ =>
    rcases List.mem_cons.mp hn with rfl | hn
    · exact ⟨_, List.infix_rfl, .connected hφ hψ⟩
    rcases List.mem_append.mp hn with hn | hn
    · obtain ⟨vs, hvs, hn⟩ := ihφ hn
      exact ⟨vs, hvs.trans (List.prefix_append ..).isInfix, hn⟩
    · obtain ⟨vs, hvs, hn⟩ := ihψ hn
      refine ⟨vs, hvs.trans ?_, hn⟩
      exact ((List.suffix_cons ..).trans (List.suffix_append ..)).isInfix
  | @negated ts φ sign h ih =>
    rcases List.mem_cons.mp hn with rfl | hn
    · exact ⟨_, List.infix_rfl, h.negated.formula⟩
    · obtain ⟨vs, hvs, hn⟩ := ih hn
      exact ⟨vs, hvs.trans (List.suffix_cons ..).isInfix, hn⟩
  | @bound ts φ q x h ih =>
    rcases List.mem_cons.mp hn with rfl | hn
    · exact ⟨_, List.infix_rfl, h.bound.formula⟩
    · obtain ⟨vs, hvs, hn⟩ := ih hn
      refine ⟨vs, hvs.trans ?_, hn⟩
      exact ((List.suffix_cons ..).trans (List.suffix_cons ..)).isInfix
  | related =>
    rw [List.mem_singleton.mp hn]
    exact ⟨_, List.infix_rfl, Phrase.related.formula⟩
  | compared =>
    rw [List.mem_singleton.mp hn]
    exact ⟨_, List.infix_rfl, Phrase.compared.formula⟩
  | @parenthesized ts φ opened closed h ih =>
    rcases Formula.mem_nodes_moveTo hn with rfl | hn
    · exact ⟨_, List.infix_rfl, h.parenthesized.formula⟩
    · obtain ⟨vs, hvs, hn⟩ := ih hn
      refine ⟨vs, hvs.trans ?_, hn⟩
      exact (List.prefix_append ..).isInfix.trans (List.suffix_cons ..).isInfix

/-! ## The symbols -/

/-- Whether the token is a symbol of the tree: no parenthesis and no comma. -/
def Token.isSymbol : Token → Bool
  | leftParen | rightParen | comma | endOfInput => false
  | _ => true

/-- The tokens that are symbols of the tree. -/
def symbols (ts : List (Placed Span Token)) : List (Placed Span Token) :=
  ts.filter (·.value.isSymbol)

theorem symbols_cons {t : Placed Span Token} (ht : t.value.isSymbol = true) :
    symbols (t :: ts) = t :: symbols ts :=
  List.filter_cons_of_pos ht

theorem symbols_cons_mark {t : Placed Span Token} (ht : t.value.isSymbol = false) :
    symbols (t :: ts) = symbols ts :=
  List.filter_cons_of_neg (Bool.eq_false_iff.mp ht)

theorem symbols_append (ts us : List (Placed Span Token)) :
    symbols (ts ++ us) = symbols ts ++ symbols us :=
  List.filter_append ..

/-- All symbols of the formula, as tokens, from left to right. -/
def Formula.symbols : Formula Span → List (Placed Span Token)
  | quantified _ q x φ => ⟨q.place, .quantifier q.value⟩ :: ⟨x.place, .var x.value⟩ :: φ.symbols
  | binary _ c φ ψ => φ.symbols ++ ⟨c.place, .connective c.value⟩ :: ψ.symbols
  | negation _ sign φ => ⟨sign, .negation⟩ :: φ.symbols
  | comparison _ o x y =>
    [⟨x.place, .var x.value⟩, ⟨o.place, .comparison o.value⟩, ⟨y.place, .var y.value⟩]
  | relation _ r xs =>
    ⟨r.place, r.value.token⟩ :: xs.map fun x => ⟨x.place, .var x.value⟩

theorem Formula.symbols_moveTo (φ : Formula Span) (p : Span) :
    (φ.moveTo p).symbols = φ.symbols := by
  cases φ <;> rfl

theorem symbols_argumentTokens (xs : List (Span × Placed Span Variable)) :
    symbols (argumentTokens xs) = (xs.map (·.2)).map fun x => ⟨x.place, .var x.value⟩ := by
  induction xs with
  | nil => rfl
  | cons x xs ih =>
    rw [List.map_cons, List.map_cons, ← ih]
    rfl

/-- The symbols of the tree are the tokens but the parentheses and commas. -/
theorem Phrase.symbols_eq (h : Phrase c ts φ) : φ.symbols = symbols ts := by
  induction h with
  | operand _ ih => exact ih
  | unnegated _ ih => exact ih
  | connected _ _ ihφ ihψ =>
    rw [symbols_append, symbols_cons rfl, ← ihφ, ← ihψ]
    rfl
  | negated _ ih =>
    rw [symbols_cons rfl, ← ih]
    rfl
  | bound _ ih =>
    rw [symbols_cons rfl, symbols_cons rfl, ← ih]
    rfl
  | @related r opened closed x xs =>
    have hr : r.value.token.isSymbol = true := by cases r.value <;> rfl
    rw [symbols_cons (t := ⟨r.place, r.value.token⟩) hr, symbols_cons_mark rfl, symbols_cons rfl,
      symbols_append, symbols_argumentTokens, symbols_cons_mark rfl]
    simp [Formula.symbols, symbols]
  | compared => rfl
  | parenthesized _ ih =>
    rw [Formula.symbols_moveTo, symbols_cons_mark rfl, symbols_append, symbols_cons_mark rfl, ih]
    exact (List.append_nil _).symm

/-! ## Moving a phrase -/

theorem Formula.place_mapPlace {σ τ : Type} (f : σ → τ) (φ : Formula σ) :
    (φ.mapPlace f).place = f φ.place := by
  cases φ <;> rfl

theorem Formula.mapPlace_moveTo (f : Span → Span) (φ : Formula Span) (p : Span) :
    (φ.moveTo p).mapPlace f = (φ.mapPlace f).moveTo (f p) := by
  cases φ <;> rfl

theorem map_argumentTokens (f : Span → Span) (xs : List (Span × Placed Span Variable)) :
    (argumentTokens xs).map (·.mapPlace f) =
      argumentTokens (xs.map fun x => (f x.1, x.2.mapPlace f)) := by
  induction xs with
  | nil => rfl
  | cons x xs ih =>
    rw [List.map_cons]
    show _ :: _ :: (argumentTokens xs).map (·.mapPlace f) = _
    rw [ih]
    rfl

/-- A phrase, moved to the left, is a phrase. -/
theorem Phrase.shiftLeft (h : Phrase c ts φ) (n : Nat) :
    Phrase c (ts.map (·.mapPlace (Span.shiftLeft n))) (φ.mapPlace (Span.shiftLeft n)) := by
  induction h with
  | operand _ ih => exact .operand ih
  | unnegated _ ih => exact .unnegated ih
  | @connected ts us φ ψ k _ _ ihφ ihψ =>
    have hconnected := Phrase.connected (c := k.mapPlace (Span.shiftLeft n)) ihφ ihψ
    rw [Formula.place_mapPlace, Formula.place_mapPlace, ← Span.shiftLeft_cover] at hconnected
    rw [List.map_append]
    exact hconnected
  | @negated ts φ sign _ ih =>
    have hnegated := @Phrase.negated _ _ (sign.shiftLeft n) ih
    rw [Formula.place_mapPlace] at hnegated
    exact hnegated
  | @bound ts φ q x _ ih =>
    have hbound := Phrase.bound (q := q.mapPlace (Span.shiftLeft n))
      (x := x.mapPlace (Span.shiftLeft n)) ih
    rw [Formula.place_mapPlace] at hbound
    exact hbound
  | @related r opened closed x xs =>
    have hrelated := @Phrase.related (r.mapPlace (Span.shiftLeft n)) (opened.shiftLeft n)
      (closed.shiftLeft n) (x.mapPlace (Span.shiftLeft n))
      (xs.map fun x => (x.1.shiftLeft n, x.2.mapPlace (Span.shiftLeft n)))
    rw [← map_argumentTokens] at hrelated
    simp only [List.map_cons, List.map_append, Formula.mapPlace, List.map_map] at hrelated ⊢
    exact hrelated
  | @compared x y o =>
    exact Phrase.compared (x := x.mapPlace (Span.shiftLeft n))
      (y := y.mapPlace (Span.shiftLeft n)) (o := o.mapPlace (Span.shiftLeft n))
  | @parenthesized ts φ opened closed _ ih =>
    have hparenthesized :=
      @Phrase.parenthesized _ _ (opened.shiftLeft n) (closed.shiftLeft n) ih
    rw [Formula.mapPlace_moveTo, List.map_cons, List.map_append]
    exact hparenthesized

end GraphLogic
