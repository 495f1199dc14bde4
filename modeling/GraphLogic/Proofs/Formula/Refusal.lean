import GraphLogic.Proofs.Formula.Reading.Viable
import GraphLogic.Proofs.Formula.Text

/-!
# What the reader refuses

**Theorem (`Cursor.formula_explains`).** A syntax error is at the first token that no formula goes
on with, and its message lists, in order and without repetitions, how everything is described that
a formula could go on with at that place.

The reader stops at the first token that its state does not admit (`Reader.read_error`), and the
state admits just what keeps the tokens viable (`Reader.admits_iff`). The list is drawn from one
sample of each description, as whether a token is admitted depends on its description only
(`Reader.admits_sample`).
-/

namespace GraphLogic

variable {r : Reader} {ts : List (Placed Span Token)} {e : SyntaxError} {stop : Nat}

/-! ## The samples -/

/-- The sample with the description of a token. -/
def Token.sample : Token → Token
  | var _ => var ⟨.element, "x"⟩
  | t => t

theorem Token.sample_mem (t : Token) : t.sample ∈ samples := by
  cases t with
  | quantifier q => cases q <;> decide
  | connective c => cases c <;> decide
  | comparison o => cases o <;> decide
  | var x => show var ⟨.element, "x"⟩ ∈ samples; decide
  | _ => decide

theorem Token.description_sample (t : Token) : t.sample.description = t.description := by
  cases t <;> rfl

/-- A token is spoken of as it is written, if it is written in one way. -/
theorem Token.tokenize_text {t : Token} (hend : t ≠ endOfInput) (hvar : ∀ x, t ≠ var x) :
    tokenize t.text = .ok (closed t.text.length [⟨⟨0, t.text.length⟩, t⟩]) := by
  cases t with
  | quantifier q => cases q <;> decide +kernel
  | connective c => cases c <;> decide +kernel
  | comparison o => cases o <;> decide +kernel
  | var x => exact absurd rfl (hvar x)
  | endOfInput => exact absurd rfl hend
  | _ => decide +kernel

theorem Token.description_eq_text {t : Token} (hend : t ≠ endOfInput) (hvar : ∀ x, t ≠ var x) :
    t.description = "'" ++ t.text ++ "'" := by
  cases t with
  | var x => exact absurd rfl (hvar x)
  | endOfInput => exact absurd rfl hend
  | _ => rfl

theorem Token.samples_sorted : (samples.map description).Pairwise (· < ·) := by decide

namespace Reader

theorem admits_sample (r : Reader) (t : Token) : r.admits t.sample = r.admits t := by
  obtain ⟨phase, level, outer⟩ := r
  cases t with
  | var x =>
    obtain ⟨_ | _, name⟩ := x <;> cases phase <;> rfl
  | _ => rfl

/-- The descriptions that a syntax error lists. -/
theorem mem_expected_iff (s : String) :
    s ∈ (Token.samples.filter r.admits).map Token.description ↔
      ∃ t, r.admits t = true ∧ t.description = s := by
  rw [List.mem_map]
  constructor
  · rintro ⟨t, ht, hs⟩
    exact ⟨t, (List.mem_filter.mp ht).2, hs⟩
  · rintro ⟨t, ht, hs⟩
    refine ⟨t.sample, List.mem_filter.mpr ⟨t.sample_mem, ?_⟩, t.description_sample.trans hs⟩
    rwa [admits_sample]

/-! ## The place -/

/-- Reading fails at the first token that the state does not admit. -/
theorem read_error (hend : ∃ t ∈ ts, t.value = .endOfInput) (he : r.read stop ts = .error e) :
    ∃ before t after r', ts = before ++ t :: after ∧ r.steps? before = some r' ∧
      r'.admits t.value = false ∧ e = r'.refuse t := by
  induction ts generalizing r with
  | nil =>
    obtain ⟨t, ht, -⟩ := hend
    cases ht
  | cons t rest ih =>
    rw [read] at he
    by_cases ht : t.value = .endOfInput
    · rw [if_pos ht] at he
      cases hresult : r.result? with
      | some φ =>
        rw [hresult] at he
        cases he
      | none =>
        rw [hresult] at he
        cases he
        refine ⟨[], t, rest, r, rfl, rfl, ?_, rfl⟩
        rw [ht, admits, hresult]
        rfl
    · rw [if_neg ht] at he
      cases hstep : r.step? t with
      | none =>
        rw [hstep] at he
        cases he
        refine ⟨[], t, rest, r, rfl, rfl, ?_, rfl⟩
        rw [admits_eq ht t.place, hstep]
        rfl
      | some next =>
        rw [hstep] at he
        have hrest : ∃ t ∈ rest, t.value = .endOfInput := by
          obtain ⟨u, hu, huend⟩ := hend
          rcases List.mem_cons.mp hu with rfl | hu
          · exact absurd huend ht
          · exact ⟨u, hu, huend⟩
        obtain ⟨before, u, after, r', hsplit, hsteps, hu, he⟩ := ih hrest he
        refine ⟨t :: before, u, after, r', ?_, ?_, hu, he⟩
        · rw [hsplit, List.cons_append]
        · rw [steps?_cons hstep, hsteps]

end Reader

/-! ## What a syntax error says -/

/-- The list names the alternatives: the last of them stands behind an `or`, and the others have
commas between them. -/
def SyntaxError.Lists (list : String) (alternatives : List String) : Prop :=
  ∃ others last, alternatives = others ++ [last] ∧
    list = if others = [] then last else ", ".intercalate others ++ " or " ++ last

/-- The error is at the first of the tokens that cannot go on a formula, and says what could. -/
def SyntaxError.Explains (e : SyntaxError) (ts : List (Placed Span Token)) : Prop :=
  ∃ (i : Nat) (t : Placed Span Token) (expected : List String) (list : String),
    ts[i]? = some t ∧ (∀ j, Viable ((ts.take j).map (·.value)) ↔ j ≤ i) ∧ e.place = t.place ∧
    expected.Pairwise (· < ·) ∧
    (∀ s, s ∈ expected ↔
      ∃ u : Token, Viable ((ts.take i).map (·.value) ++ [u]) ∧ u.description = s) ∧
    Lists list expected ∧
    e.message = "Expected " ++ list ++ ", but found " ++
      if t.value = .endOfInput then "end of input" else "'" ++ t.value.text ++ "'"

theorem SyntaxError.alternatives_concat (others : List String) (last : String) :
    alternatives (others ++ [last]) =
      if others = [] then last else ", ".intercalate others ++ " or " ++ last := by
  induction others with
  | nil => rfl
  | cons a others ih =>
    rw [if_neg (List.cons_ne_nil a others)]
    cases others with
    | nil => simp [alternatives]
    | cons b others =>
      rw [if_neg (List.cons_ne_nil b others)] at ih
      have hstep : alternatives (a :: b :: others ++ [last]) =
          a ++ ", " ++ alternatives (b :: others ++ [last]) := by
        cases others <;> rfl
      rw [hstep, ih, String.intercalate_cons_cons]
      simp only [String.append_assoc]

theorem SyntaxError.Lists.unique {list list' : String} {alternatives : List String}
    (h : Lists list alternatives) (h' : Lists list' alternatives) : list = list' := by
  obtain ⟨others, last, rfl, rfl⟩ := h
  obtain ⟨others', last', heq, rfl⟩ := h'
  obtain ⟨rfl, hlast⟩ := List.append_inj' heq rfl
  obtain ⟨rfl, -⟩ := List.cons.inj hlast
  rfl

theorem SyntaxError.lists_alternatives {expected : List String} (hne : expected ≠ []) :
    Lists (alternatives expected) expected := by
  obtain ⟨others, last, rfl⟩ := (List.eq_nil_or_concat' expected).resolve_left hne
  exact ⟨others, last, rfl, alternatives_concat others last⟩

theorem SyntaxError.foundText_eq {t : Token} (ht : e.found = some t) :
    e.foundText = if t = .endOfInput then "end of input" else "'" ++ t.text ++ "'" := by
  unfold foundText
  rw [ht]
  cases t <;> rfl

namespace Reader

variable {before after : List (Placed Span Token)} {t : Placed Span Token}

/-- Something is always expected. -/
theorem samples_ne_nil (r : Reader) : Token.samples.filter r.admits ≠ [] := by
  obtain ⟨u, hu⟩ := r.exists_admits
  exact List.ne_nil_of_mem (List.mem_filter.mpr ⟨u.sample_mem, by rwa [admits_sample]⟩)

/-- So the message is of one form. -/
theorem message_refuse (r : Reader) (t : Placed Span Token) :
    (r.refuse t).message = "Expected " ++
      SyntaxError.alternatives ((Token.samples.filter r.admits).map Token.description) ++
        ", but found " ++ (r.refuse t).foundText := by
  unfold SyntaxError.message
  split
  · next hnil => exact absurd hnil r.samples_ne_nil
  · rfl

/-- The tokens stay viable just as long as the reader goes on. -/
theorem viable_take_iff (hr : ({} : Reader).steps? before = some r)
    (ht : r.admits t.value = false) (j : Nat) :
    Viable (((before ++ t :: after).take j).map (·.value)) ↔ j ≤ before.length := by
  have hbefore : Viable (before.map (·.value)) := by
    obtain ⟨u, hu⟩ := r.exists_admits
    exact ((admits_iff hr u).mp hu).of_isPrefix (List.prefix_append ..)
  have hrefused : ¬Viable (before.map (·.value) ++ [t.value]) := by
    rw [← admits_iff hr, ht]
    exact Bool.false_ne_true
  constructor
  · intro hj
    by_contra hlt
    refine hrefused (hj.of_isPrefix ?_)
    have hprefix : before ++ [t] <+: (before ++ t :: after).take j := by
      refine List.prefix_take_iff.mpr ⟨?_, ?_⟩
      · exact ⟨after, (List.append_cons ..).symm⟩
      · rw [List.length_append, List.length_singleton]
        omega
    have := hprefix.map (·.value)
    rwa [List.map_append] at this
  · intro hj
    refine hbefore.of_isPrefix ?_
    rw [List.take_append_of_le_length hj]
    exact (List.take_prefix ..).map _

theorem refuse_explains (hr : ({} : Reader).steps? before = some r)
    (ht : r.admits t.value = false) : (r.refuse t).Explains (before ++ t :: after) := by
  let expected := (Token.samples.filter r.admits).map Token.description
  refine ⟨before.length, t, expected, SyntaxError.alternatives expected, ?_,
    viable_take_iff hr ht, rfl, ?_, ?_, ?_, ?_⟩
  · rw [List.getElem?_append_right (Nat.le_refl _), Nat.sub_self]
    rfl
  · exact Token.samples_sorted.sublist (List.filter_sublist.map _)
  · intro s
    rw [List.take_left]
    refine (mem_expected_iff s).trans ?_
    exact exists_congr fun u => and_congr_left fun _ => admits_iff hr u
  · exact SyntaxError.lists_alternatives (mt List.map_eq_nil_iff.mp r.samples_ne_nil)
  · rw [message_refuse, SyntaxError.foundText_eq rfl]

end Reader

/-- A walk over tokens fails at the first of them that the state does not admit. -/
theorem Cursor.exists_refuse {tokens : List (Placed Span Token)}
    (he : (ofTokens tokens).formula = .error e) :
    ∃ before t after r, (ofTokens tokens).remaining = before ++ t :: after ∧
      ({} : Reader).steps? before = some r ∧ r.admits t.value = false ∧ e = r.refuse t := by
  obtain ⟨t, us, hrem, ht⟩ := exists_remaining tokens
  refine Reader.read_error ?_ he
  rw [hrem]
  exact ⟨t, by simp, ht⟩

theorem Cursor.formula_explains {tokens : List (Placed Span Token)}
    (he : (ofTokens tokens).formula = .error e) : e.Explains (ofTokens tokens).remaining := by
  obtain ⟨before, t, after, r, hsplit, hr, ht, rfl⟩ := exists_refuse he
  rw [hsplit]
  exact Reader.refuse_explains hr ht

/-- A text is refused by the walk over all of its tokens. -/
theorem exists_tokens_of_parse_error {source : String}
    (he : parse source = .error (.syntactic e)) :
    ∃ tokens, tokenize source = .ok tokens ∧ (Cursor.ofTokens tokens).formula = .error e ∧
      (Cursor.ofTokens tokens).remaining = tokens := by
  rcases parse_error_cases he with ⟨_, heq, -⟩ | ⟨_, tokens, heq, htokens, he⟩
  · cases heq
  · cases heq
    obtain ⟨ts, hts, rfl⟩ := exists_of_map_eq_ok htokens
    exact ⟨_, htokens, he, Cursor.remaining_ofTokens_concat ..⟩

theorem parse_explains {source : String} (he : parse source = .error (.syntactic e)) :
    ∃ tokens, tokenize source = .ok tokens ∧ e.Explains tokens := by
  obtain ⟨tokens, htokens, he, hremaining⟩ := exists_tokens_of_parse_error he
  have hexplains := Cursor.formula_explains he
  rw [hremaining] at hexplains
  exact ⟨tokens, htokens, hexplains⟩

/-- A syntax error is about one of the tokens, at its place. -/
theorem exists_found_of_parse_error {source : String}
    (he : parse source = .error (.syntactic e)) :
    ∃ tokens t, tokenize source = .ok tokens ∧ t ∈ tokens ∧ e.found = some t.value ∧
      e.place = t.place := by
  obtain ⟨tokens, htokens, he, hremaining⟩ := exists_tokens_of_parse_error he
  obtain ⟨before, t, after, r, hsplit, -, -, rfl⟩ := Cursor.exists_refuse he
  rw [hremaining] at hsplit
  exact ⟨tokens, t, htokens, hsplit ▸ List.mem_append_right before List.mem_cons_self, rfl, rfl⟩

end GraphLogic
