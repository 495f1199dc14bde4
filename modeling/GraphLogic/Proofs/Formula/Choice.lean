import GraphLogic.Proofs.Formula.Choice.Operand
import Mathlib.Data.List.Sort
import Mathlib.Data.String.Basic

/-!
# Ordered choice reads what the reader reads

**Theorem (`Cursor.choose_eq`).** Trying alternatives in order, and going back where one misses
something, gives the formula of the reader, or its error: the furthest miss is at the token that
the reader refuses, and everything missed there is what the reader takes.

**Theorem (`formula_iff_sentence`).** So both read just the sentences of the grammar, as their only
trees.

**Theorem (`syntaxError_explains`).** A syntax error is at the first token that no formula goes on
with, and its message lists, in order and without repetitions, how everything is described that a
formula could go on with at that place.
-/

namespace GraphLogic

variable {ts us used rest : List (Placed Span Token)} {r r' : Reader} {m : Miss}
  {es : List Token} {φ : Formula Span}

namespace Grammar

open Parse Reader

section

variable {formula : Parse (Formula Span)}

/-! ## Chains of operands -/

theorem connected_cases (hformula : ChainsBelow ts.length formula) :
    (∃ (k : Placed Span Connective) (used : List (Placed Span Token)) (φ : Formula Span)
      (rest : List (Placed Span Token)), ts = ⟨k.place, .connective k.value⟩ :: (used ++ rest) ∧
        Phrase .unary used φ ∧ Takes (k, φ) rest ((connected formula).run ts)) ∨
      Missing ts connectives ((connected formula).run ts) ∨
      ∃ (k : Placed Span Connective) (us : List (Placed Span Token)) (m : Miss),
        ts = ⟨k.place, .connective k.value⟩ :: us ∧ (connected formula).run ts = .error m ∧
        m.rest.length ≤ us.length ∧
          ∀ (r : Reader) (φ : Formula Span), r.phase = .complete φ → r.Misses ts m := by
  rcases connective_cases ts with ⟨k, us, rfl, hk⟩ | hmissing
  · have hunary : Parses .unary operandStarts us ((unary formula).run us) :=
      parses_unary (hformula.mono (Nat.le_succ _))
    rcases hunary.outcome with ⟨used, φ, rest, rfl, hlt, hφ, htakes⟩ | ⟨m, hm, hle, hmisses⟩
    · exact Or.inl ⟨k, used, φ, rest, rfl, hφ,
        hk.bind (htakes.bind (takes_pure _ rest) (Nat.le_refl _)) (by simp)⟩
    · refine Or.inr (Or.inr ⟨k, us, m, rfl, ?_, hle, ?_⟩)
      · exact Takes.bind_error (f := fun k => unary formula >>= fun φ => pure (k, φ)) hk
          (bind_error hm _) hle
      · rintro ⟨phase, level, outer⟩ φ rfl
        let right : Reader := ⟨.operand, { left := some (φ, k) }, outer⟩
        have hstep : Reader.step? ⟨.complete φ, level, outer⟩ ⟨k.place, .connective k.value⟩ =
            some right := rfl
        exact Misses.of_step hstep (hmisses right rfl (mem_operandStarts_iff rfl))
  · exact Or.inr (Or.inl (hmissing.bind _))

theorem connected_forward (hformula : ChainsBelow ts.length formula) :
    Forward (connected formula) ts := by
  rcases connected_cases hformula with ⟨k, used, φ, rest, rfl, -, htakes⟩ | ⟨m, hm, hrest, -⟩ |
    ⟨k, us, m, rfl, hm, hle, -⟩
  · exact Or.inl ⟨_, rest, htakes, by grind⟩
  · exact Or.inr ⟨m, hm, by rw [hrest]⟩
  · exact Or.inr ⟨m, hm, Nat.le_succ_of_le hle⟩

theorem of_takes_connected {k : Placed Span Connective} (hformula : ChainsBelow ts.length formula)
    (h : Takes (k, φ) rest ((connected formula).run ts)) :
    ∃ used, ts = ⟨k.place, .connective k.value⟩ :: (used ++ rest) ∧ Phrase .unary used φ := by
  rcases connected_cases hformula with ⟨k', used, φ', rest', rfl, hφ, h'⟩ | ⟨m, hm, -⟩ |
    ⟨k', us, m, rfl, hm, -⟩
  · obtain ⟨heq, rfl⟩ := h.unique h'
    cases heq
    exact ⟨used, rfl, hφ⟩
  · exact absurd hm h.ne_error
  · exact absurd hm h.ne_error

theorem trails_of_connected_error (hformula : ChainsBelow rest.length formula)
    (h : (connected formula).run rest = .error m) : Trails rest m := by
  rcases connected_cases hformula with ⟨k, used, φ, rest', rfl, hφ, h'⟩ | ⟨n, hn, hrest, hfits⟩ |
    ⟨k, us, n, rfl, hn, hle, hmisses⟩
  · exact absurd h h'.ne_error
  · rw [h] at hn
    cases hn
    exact Or.inl ⟨hrest, hfits⟩
  · rw [h] at hn
    cases hn
    exact Or.inr ⟨⟨_, _, _, rfl⟩, Nat.lt_succ_of_le hle, hmisses⟩

/-- Operands behind a formula belong to it. -/
theorem phrase_of_reads {others : List (Placed Span Connective × Formula Span)}
    (hformula : ChainsBelow ts.length formula)
    (h : Reads (connected formula) ts others rest) (hφ : Phrase .formula used φ) :
    ∃ used', ts = used' ++ rest ∧ Phrase .formula (used ++ used') (others.foldl
      (fun φ (k, ψ) => .binary (φ.place.cover ψ.place) k φ ψ) φ) := by
  induction h generalizing used φ with
  | done ts => exact ⟨[], rfl, by rwa [List.append_nil]⟩
  | @more ts ts' rest next others hnext _ ih =>
    obtain ⟨k, ψ⟩ := next
    obtain ⟨operand, rfl, hψ⟩ := of_takes_connected hformula hnext
    obtain ⟨used', rfl, h⟩ := ih (hformula.mono (by grind)) (.connected hφ hψ)
    refine ⟨⟨k.place, .connective k.value⟩ :: (operand ++ used'), ?_, ?_⟩
    · simp
    · rw [List.append_assoc] at h
      exact h

theorem chains_chain (hformula : ChainsBelow ts.length formula) :
    Chains ts ((chain formula).run ts) := by
  rcases (parses_unary hformula).outcome with ⟨used, φ, us, rfl, hlt, hφ, htakes⟩ |
    ⟨m, hm, -, hmisses⟩
  · obtain ⟨others, rest, m, hmany, hm, hle, hreads⟩ :=
      many_spec (p := connected formula) fun vs hvs =>
        connected_forward (hformula.mono (Nat.le_trans hvs (Nat.le_of_lt hlt)))
    have hrest : ChainsBelow rest.length formula :=
      hformula.mono (Nat.le_trans hle (Nat.le_of_lt hlt))
    obtain ⟨used', rfl, hphrase⟩ :=
      phrase_of_reads (hformula.mono (Nat.le_of_lt hlt)) hreads (.operand hφ)
    have hlast : m.rest.length ≤ rest.length := (connected_forward hrest).length_le hm
    refine Or.inl ⟨used ++ used', _, rest, m, (List.append_assoc ..).symm, hphrase, ?_,
      trails_of_connected_error hrest hm⟩
    exact bind_many htakes hmany (Nat.le_trans hlast hle)
  · refine Or.inr ⟨m, bind_error hm _, fun r hr => ?_⟩
    exact hmisses r hr.1 (mem_operandStarts_iff hr.1)

end

/-- **Formulas.** -/
theorem chains_formula (ts : List (Placed Span Token)) : Chains ts (formula.run ts) :=
  recursive_spec (P := Chains) (fun _ _ hinner => chains_chain hinner) ts

end Grammar

/-! ## The reader and the parser -/

namespace Reader

theorem ne_endOfInput_of_steps (h : r.steps? used = some r') :
    ∀ t ∈ used, t.value ≠ .endOfInput := by
  induction used generalizing r with
  | nil => simp
  | cons t used ih =>
    cases hstep : r.step? t with
    | none =>
      rw [steps?, hstep] at h
      cases h
    | some next =>
      rw [steps?_cons hstep] at h
      exact List.forall_mem_cons.mpr ⟨ne_endOfInput_of_step hstep, ih h⟩

/-- Reading goes on behind tokens that were read. -/
theorem read_append_of_steps {stop : Nat} (h : r.steps? used = some r') :
    r.read stop (used ++ rest) = r'.read stop rest := by
  induction used generalizing r with
  | nil =>
    cases h
    rfl
  | cons t used ih =>
    have ht := ne_endOfInput_of_steps h t List.mem_cons_self
    cases hstep : r.step? t with
    | none =>
      rw [steps?, hstep] at h
      cases h
    | some next =>
      rw [steps?_cons hstep] at h
      rw [List.cons_append, read, if_neg ht, hstep]
      exact ih h

theorem read_of_not_admits {t : Placed Span Token} {stop : Nat} (ht : r.admits t.value = false) :
    r.read stop (t :: rest) = .error (r.refuse t) := by
  rw [read]
  split_ifs with hend
  · rw [hend] at ht
    cases hresult : r.result? with
    | none => rfl
    | some φ =>
      rw [admits, hresult] at ht
      cases ht
  · rw [admits_eq hend t.place] at ht
    cases hstep : r.step? t with
    | none => rfl
    | some next =>
      have : r.step? ⟨t.place, t.value⟩ = some next := hstep
      rw [this] at ht
      cases ht

end Reader

/-! ## Messages -/

theorem pairwise_lt_eraseDups {l : List String} (h : l.Pairwise (· ≤ ·)) :
    l.eraseDups.Pairwise (· < ·) := by
  induction hn : l.length using Nat.strong_induction_on generalizing l with
  | _ n ih =>
    cases l with
    | nil => exact .nil
    | cons a as =>
      obtain ⟨ha, has⟩ := List.pairwise_cons.mp h
      rw [List.eraseDups_cons, List.pairwise_cons]
      constructor
      · intro b hb
        obtain ⟨hb, hne⟩ := List.mem_filter.mp (List.mem_eraseDups.mp hb)
        have hne : b ≠ a := by simpa using hne
        exact lt_of_le_of_ne (ha b hb) hne.symm
      · refine ih _ ?_ (has.sublist List.filter_sublist) rfl
        rw [← hn, List.length_cons]
        exact Nat.lt_succ_of_le (List.length_filter_le ..)

/-- Sorted and without repetitions, the descriptions are those of the samples. -/
theorem sort_descriptions (h : ∀ u, u ∈ es.map Token.sample ↔ u ∈ r.expected) :
    ((es.map Token.description).mergeSort fun s t => decide (s ≤ t)).eraseDups =
      r.expected.map Token.description := by
  have hsorted : ((es.map Token.description).mergeSort fun s t => decide (s ≤ t)).Pairwise
      (· ≤ ·) := by
    refine (List.pairwise_mergeSort ?_ ?_ _).imp of_decide_eq_true
    · intro a b c hab hbc
      exact decide_eq_true (le_trans (of_decide_eq_true hab) (of_decide_eq_true hbc))
    · intro a b
      rw [Bool.or_eq_true, decide_eq_true_iff, decide_eq_true_iff]
      exact le_total a b
  refine (pairwise_lt_eraseDups hsorted).eq_of_mem_iff
    (Token.samples_sorted.sublist (List.filter_sublist.map _)) fun s => ?_
  rw [List.mem_eraseDups, List.mem_mergeSort, List.mem_map, List.mem_map]
  constructor
  · rintro ⟨t, ht, rfl⟩
    exact ⟨t.sample, (h _).mp (List.mem_map_of_mem ht), t.description_sample⟩
  · rintro ⟨u, hu, rfl⟩
    obtain ⟨t, ht, rfl⟩ := List.mem_map.mp ((h u).mpr hu)
    exact ⟨t, ht, t.description_sample.symm⟩

theorem Miss.foundText_eq {t : Placed Span Token} (hrest : m.rest = t :: rest) (r : Reader) :
    m.foundText = (r.refuse t).foundText := by
  have hfound : (r.refuse t).found = some t.value := rfl
  unfold foundText
  rw [hrest, SyntaxError.foundText_eq hfound]
  obtain ⟨place, value⟩ := t
  cases value <;> rfl

/-- A miss says what the error of the reader says. -/
theorem Miss.message_eq {t : Placed Span Token} (hrest : m.rest = t :: rest)
    (h : ∀ u, u ∈ m.expected.map Token.sample ↔ u ∈ r.expected) :
    m.message = (r.refuse t).message := by
  have hrefused : (r.refuse t).expected = r.expected := rfl
  unfold message SyntaxError.message
  rw [sort_descriptions h, foundText_eq hrest r, hrefused]
  cases r.expected <;> rfl

/-- **The parser agrees with the reader.** -/
theorem Cursor.choose_eq (tokens : List (Placed Span Token)) :
    (ofTokens tokens).choose =
      (ofTokens tokens).formula.mapError fun e => ⟨e.place, e.message⟩ := by
  have hwhole := (Grammar.chains_formula (ofTokens tokens).remaining).before (Or.inr rfl)
  unfold choose formula Grammar.whole
  rcases hwhole with ⟨used, φ, place, rest, hts, hφ, missed, hwhole, -⟩ | ⟨m, hm, hmisses⟩
  · have hsteps := hφ.steps (r := {}) ⟨rfl, rfl⟩
    rw [hwhole, hts, Reader.read_append_of_steps hsteps]
    rfl
  · obtain ⟨used, r, hts, hsteps, hfits⟩ := hmisses {} ⟨rfl, rfl⟩ rfl
    rw [hm, hts, Reader.read_append_of_steps hsteps]
    cases hrest : m.rest with
    | nil =>
      obtain ⟨t, us, hrem, ht⟩ := exists_remaining tokens
      rw [hrest, List.append_nil] at hts
      refine absurd ht (Reader.ne_endOfInput_of_steps hsteps t ?_)
      rw [← hts, hrem]
      simp
    | cons t rest =>
      obtain ⟨ht, hexpected⟩ := hfits t (by rw [hrest]; rfl)
      have hadmits : r.admits t.value = false := by
        rw [← r.admits_sample, ← Bool.not_eq_true]
        exact fun h => ht (List.mem_filter.mpr ⟨t.value.sample_mem, h⟩)
      rw [Reader.read_of_not_admits hadmits]
      show Except.error _ = Except.error _
      rw [Miss.message_eq hrest hexpected, hrest]
      rfl

theorem Cursor.choose_eq_ok_iff {tokens : List (Placed Span Token)} :
    (ofTokens tokens).choose = .ok φ ↔ (ofTokens tokens).formula = .ok φ := by
  rw [choose_eq]
  cases (ofTokens tokens).formula <;> simp [Except.mapError]

/-! ## Sentences -/

/-- **Both follow the grammar.** For every list of tokens: the tokens before the first end of the
input are a sentence just when a formula is read, by the reader or by the ordered choice, and the
formula is, up to places, the only tree of the sentence. Tokens behind an end of the input change
neither the formula nor the error that is read. -/
theorem formula_iff_sentence (tokens : List (Placed Span Token)) :
    (∀ φ, Sentence .formula ((beforeEnd tokens).map (·.value)) φ ↔
      ∃ ψ, (Cursor.ofTokens tokens).formula = .ok ψ ∧ ψ.bare = φ) ∧
    (∀ φ, Sentence .formula ((beforeEnd tokens).map (·.value)) φ ↔
      ∃ ψ, (Cursor.ofTokens tokens).choose = .ok ψ ∧ ψ.bare = φ) ∧
    (∀ φ φ', Sentence .formula ((beforeEnd tokens).map (·.value)) φ →
      Sentence .formula ((beforeEnd tokens).map (·.value)) φ' → φ = φ') ∧
    (∀ place after, (Cursor.ofTokens (tokens ++ ⟨place, .endOfInput⟩ :: after)).formula =
      (Cursor.ofTokens (tokens ++ [⟨place, .endOfInput⟩])).formula) ∧
    ∀ place after, (Cursor.ofTokens (tokens ++ ⟨place, .endOfInput⟩ :: after)).choose =
      (Cursor.ofTokens (tokens ++ [⟨place, .endOfInput⟩])).choose := by
  have hread : ∀ φ, Sentence .formula ((beforeEnd tokens).map (·.value)) φ ↔
      ∃ ψ, (Cursor.ofTokens tokens).formula = .ok ψ ∧ ψ.bare = φ :=
    fun φ => (exists_formula_iff tokens φ).symm
  refine ⟨hread, ?_, ?_, ?_, ?_⟩
  · intro φ
    simp only [Cursor.choose_eq_ok_iff, hread]
  · intro φ φ' hφ hφ'
    exact hφ.tree_unique hφ'
  · intro place after
    exact Cursor.formula_append tokens after place
  · intro place after
    rw [Cursor.choose_eq, Cursor.choose_eq, Cursor.formula_append]

/-! ## Syntax errors -/

/-- **Syntax errors.** Where a list of tokens is not read, the error is at the first token that no
formula goes on with, and lists exactly what a formula could go on with there; so is the syntax
error of a text, for the tokens of the text. It is what the parser by ordered choice misses. What
could go on is described as it is written, but for variables, which are described by that word, and
for the end of the input. -/
theorem syntaxError_explains :
    (∀ tokens e, (Cursor.ofTokens tokens).formula = .error e →
      e.Explains (Cursor.ofTokens tokens).remaining) ∧
    (∀ source e, parse source = .error (.syntactic e) →
      ∃ tokens, tokenize source = .ok tokens ∧ e.Explains tokens) ∧
    (∀ tokens, (Cursor.ofTokens tokens).choose =
      (Cursor.ofTokens tokens).formula.mapError fun e => ⟨e.place, e.message⟩) ∧
    (∀ x, (Token.var x).text = x.name ∧ (Token.var x).description = "variable") ∧
    Token.endOfInput.description = "end of input" ∧
    ∀ t : Token, t ≠ .endOfInput → (∀ x, t ≠ .var x) →
      t.description = "'" ++ t.text ++ "'" ∧
      tokenize t.text = .ok (closed t.text.length [⟨⟨0, t.text.length⟩, t⟩]) :=
  ⟨fun _ _ => Cursor.formula_explains, fun _ _ => parse_explains, Cursor.choose_eq,
    fun _ => ⟨rfl, rfl⟩, rfl,
    fun _ hend hvar => ⟨Token.description_eq_text hend hvar, Token.tokenize_text hend hvar⟩⟩

/-- Nothing follows a negation. -/
theorem syntaxError_explains_negation :
    let e : SyntaxError :=
      { expected := [.leftParen, .edge, .negation, .quantifier .universal,
          .quantifier .existential, .var ⟨.element, "x"⟩]
        found := some .endOfInput
        place := ⟨1, 1⟩ }
    (∃ tokens, tokenize "¬" = .ok tokens ∧ e.Explains tokens) ∧
      e.message = "Expected '(', 'E', '¬', '∀', '∃' or variable, but found end of input" := by
  intro e
  have he : parse "¬" = .error (.syntactic e) := by decide +kernel
  exact ⟨syntaxError_explains.2.1 "¬" e he, by decide +kernel⟩

end GraphLogic
