import GraphLogic.Proofs.Formula.Phrase.Tree
import GraphLogic.Proofs.Formula.Text
import GraphLogic.Proofs.Token.Cutting

/-!
# The places in a formula that was read

**Theorem (`parse_places`).** What a node's place cuts out of the text is read as that node, and
what the place of a symbol cuts out is the one token that the symbol was made from. The parts of a
node are inside its place, apart and in order; the formula as a whole reaches from the first token
to the last.

The formula that is read is the tree of the phrase that the tokens of the text make up
(`parse_eq_ok_iff_phrase`), and each of its nodes is the tree of a phrase of a run of them. The
tokens of a run are also those of the text cut out at their place (`lexemes_cut`), and they are a
phrase there, too.
-/

namespace GraphLogic

open Lexeme

variable {source : String} {φ : Formula Span} {ts us : List (Placed Span Token)}

theorem Cursor.formula_eq_ok_iff_phrase {tokens : List (Placed Span Token)} :
    (ofTokens tokens).formula = .ok φ ↔ Phrase .formula (beforeEnd tokens) φ := by
  constructor
  · intro hφ
    obtain ⟨ψ, -, hψ⟩ := (sentence_of_formula_eq_ok hφ).exists_phrase rfl
    obtain ⟨r, hr, hresult⟩ := (formula_eq_ok_iff tokens).mp hφ
    rw [hψ.steps ⟨rfl, rfl⟩] at hr
    cases hr
    cases hresult
    exact hψ
  · intro h
    exact (formula_eq_ok_iff tokens).mpr ⟨_, h.steps ⟨rfl, rfl⟩, rfl⟩

/-- The formula that is read from a text is the tree of the phrase of its tokens. -/
theorem parse_eq_ok_iff_phrase :
    parse source = .ok φ ↔ ∃ ts, lexemes source = ofTokens ts ∧ Phrase .formula ts φ := by
  rw [parse_eq_ok_iff]
  constructor
  · rintro ⟨_, htokens, hφ⟩
    obtain ⟨ts, hts, rfl⟩ := tokenize_eq_ok_iff.mp htokens
    rw [Cursor.formula_eq_ok_iff_phrase, beforeEnd_closed (munched_of_lexemes hts)] at hφ
    exact ⟨ts, hts, hφ⟩
  · rintro ⟨ts, hts, hφ⟩
    refine ⟨_, tokenize_eq_ok_iff.mpr ⟨ts, hts, rfl⟩, ?_⟩
    rwa [Cursor.formula_eq_ok_iff_phrase, beforeEnd_closed (munched_of_lexemes hts)]

theorem Munched.inOrder (h : Munched source ts) : Span.InOrder (places ts) :=
  ⟨fun p hp => Nat.le_of_lt (h.tiles.nonempty p hp), h.tiles.apart⟩

/-- What a run of the tokens cuts out of the text has these tokens. -/
theorem lexemes_cut_tokens (h : lexemes source = ofTokens ts) (hne : us ≠ []) (hus : us <:+: ts) :
    lexemes ((Span.hull (places us)).cut source) =
      ofTokens (us.map (·.mapPlace (Span.shiftLeft (Span.hull (places us)).start))) := by
  have hplaces : (ofTokens us).map (·.place) = places us := map_place_ofTokens us
  have hrun : ofTokens us <:+: lexemes source := h ▸ hus.map _
  have hlexemes : ofTokens us ≠ [] := fun hnil => hne (List.map_eq_nil_iff.mp hnil)
  have hcut := lexemes_cut hlexemes hrun
  rw [hplaces] at hcut
  rw [hcut, ofTokens, ofTokens, List.map_map, List.map_map]
  rfl

/-- A phrase of a run of the tokens is read where it stands. -/
theorem Phrase.parse_cut (h : Phrase .formula us φ) (hts : lexemes source = ofTokens ts)
    (hus : us <:+: ts) :
    parse (φ.place.cut source) = .ok (φ.mapPlace (Span.shiftLeft φ.place.start)) := by
  have hinOrder : Span.InOrder (places us) :=
    (munched_of_lexemes hts).inOrder.sublist (hus.sublist.map _)
  rw [h.place_eq hinOrder]
  exact parse_eq_ok_iff_phrase.mpr ⟨_, lexemes_cut_tokens hts h.ne_nil hus, h.shiftLeft _⟩

/-- **Places mean what they say.** For every text that is read as a formula. -/
theorem parse_places (h : parse source = .ok φ) :
    ∃ ts first last, tokenize source = .ok (closed source.toList.length ts) ∧
      ts.head? = some first ∧ ts.getLast? = some last ∧
      φ.place = first.place.upTo last.place ∧
      φ.symbols = symbols ts ∧
      (∀ t ∈ φ.symbols, tokenize (t.place.cut source) =
        .ok (closed t.place.length [⟨⟨0, t.place.length⟩, t.value⟩])) ∧
      ∀ n ∈ φ.nodes,
        parse (n.place.cut source) = .ok (n.mapPlace (Span.shiftLeft n.place.start)) ∧
        n.parts.Pairwise (fun p q => p.stop ≤ q.start) ∧
        ∀ p ∈ n.parts, p.Inside n.place := by
  obtain ⟨ts, hts, hφ⟩ := parse_eq_ok_iff_phrase.mp h
  have hmunched := munched_of_lexemes hts
  refine ⟨ts, ts.head hφ.ne_nil, ts.getLast hφ.ne_nil, tokenize_eq_ok_iff.mpr ⟨ts, hts, rfl⟩,
    List.head?_eq_some_head hφ.ne_nil, List.getLast?_eq_some_getLast hφ.ne_nil, ?_, hφ.symbols_eq,
    ?_, ?_⟩
  · rw [hφ.place_eq hmunched.inOrder]
    simp [Span.hull, places, List.head?_eq_some_head hφ.ne_nil,
      List.getLast?_eq_some_getLast hφ.ne_nil]
  · intro t ht
    rw [hφ.symbols_eq] at ht
    exact hmunched.again t (List.mem_of_mem_filter ht)
  · intro n hn
    obtain ⟨us, hus, hphrase⟩ := hφ.of_mem_nodes hn
    have hinOrder : Span.InOrder (places us) := hmunched.inOrder.sublist (hus.sublist.map _)
    obtain ⟨pss, hflatten, hne, hparts⟩ := hphrase.grouped hinOrder
    rw [← hflatten] at hinOrder
    obtain ⟨hapart, hinside⟩ := hinOrder.groups hne
    refine ⟨hphrase.parse_cut hts hus, hapart.sublist hparts, fun p hp => ?_⟩
    rw [hphrase.place_eq (hflatten ▸ hinOrder), ← hflatten]
    exact hinside p (hparts.subset hp)

/-- A formula in parentheses takes their place. -/
theorem parse_places_parentheses :
    let equation : Formula Span :=
      .comparison ⟨2, 9⟩ ⟨⟨5, 6⟩, .equal⟩ ⟨⟨3, 4⟩, ⟨.element, "x"⟩⟩ ⟨⟨7, 8⟩, ⟨.element, "y"⟩⟩
    parse "¬ (x = y)" = .ok (.negation ⟨0, 9⟩ ⟨0, 1⟩ equation) ∧
      parse (equation.place.cut "¬ (x = y)") = .ok (equation.mapPlace (Span.shiftLeft 2)) := by
  intro equation
  have hparse : parse "¬ (x = y)" = .ok (.negation ⟨0, 9⟩ ⟨0, 1⟩ equation) := by decide +kernel
  obtain ⟨-, -, -, -, -, -, -, -, -, hnodes⟩ := parse_places hparse
  have hmem : equation ∈ (Formula.negation ⟨0, 9⟩ ⟨0, 1⟩ equation).nodes :=
    List.mem_cons_of_mem _ (List.mem_singleton_self equation)
  exact ⟨hparse, (hnodes equation hmem).1⟩

end GraphLogic
