import GraphLogic.Proofs.Formula.Text
import GraphLogic.Token.Stream
import Mathlib.Data.List.TakeDrop

/-!
# Streams walk over their tokens

**Theorem (`calls_walk`).** However a stream is asked, `next` gives its tokens in order, each once,
and nothing behind the last of them; `peek` shows what the following `next` gives, or the last token
where it gives nothing; and `remaining` is what is still to be given.

The walk ends at the last token, which is an end of the input, but need not be the first one. It
ends at the first one just when no other stands before the last token, as in the tokens of a text.

What carries this along the calls is that the position is the number of tokens asked for, until
there are no more of them (`Walked`).
-/

namespace GraphLogic

variable {t : Placed Span Token} {ts tokens : List (Placed Span Token)} {k : Nat}

/-! ## The first end of the input -/

/-- The tokens up to the first end of the input, which is one of them. -/
def throughEnd (ts : List (Placed Span Token)) : List (Placed Span Token) :=
  ts.take ((beforeEnd ts).length + 1)

/-- The first end of the input is the last token just when there is no other before it. -/
theorem throughEnd_eq_self_iff (ht : t.value = .endOfInput) :
    throughEnd (ts ++ [t]) = ts ++ [t] ↔ ∀ u ∈ ts, u.value ≠ .endOfInput := by
  rw [throughEnd, List.take_eq_self_iff, List.length_append, List.length_singleton,
    Nat.add_le_add_iff_right]
  constructor
  · intro hlength u hu
    have hbefore : beforeEnd (ts ++ [t]) <+: ts ++ [t] := List.takeWhile_prefix _
    have hinside := List.prefix_of_prefix_length_le (List.prefix_append ts [t]) hbefore hlength
    exact mem_beforeEnd (hinside.subset hu)
  · intro h
    rw [beforeEnd_append h ht]

namespace TokenStream

variable {s : TokenStream}

/-! ## Streams as cursors -/

theorem last_eq_of_getLast? (h : s.tokens.getLast? = some t) : s.last = t :=
  Option.some_inj.mp ((List.getLast?_eq_some_getLast s.tokens_ne_nil).symm.trans h)

theorem value_last (s : TokenStream) : s.last.value = .endOfInput := by
  obtain ⟨place, hlast⟩ := s.ends
  rw [last_eq_of_getLast? hlast]

theorem dropLast_append_last (s : TokenStream) : s.tokens.dropLast ++ [s.last] = s.tokens :=
  List.dropLast_append_getLast s.tokens_ne_nil

theorem cursor_ofTokens (tokens : List (Placed Span Token)) :
    (ofTokens tokens).cursor = .ofTokens tokens := by
  obtain ⟨place, hlast, hcursor⟩ := Cursor.exists_getLast?_ofTokens tokens
  have hstream : (ofTokens tokens).last = ⟨place, .endOfInput⟩ := last_eq_of_getLast? hlast
  rw [cursor, hstream, ← hcursor]
  rfl

theorem cursor_peek (s : TokenStream) : s.cursor.peek = s.peek := by
  unfold Cursor.peek peek cursor remaining
  rw [List.head?_drop]

theorem next_fst (s : TokenStream) : s.next.1 = s.tokens[s.position]? := by
  unfold next
  cases s.tokens[s.position]? <;> rfl

theorem cursor_next? (s : TokenStream) :
    s.cursor.next? = s.next.1.map fun t => (t, s.next.2.cursor) := by
  unfold Cursor.next? cursor remaining next
  cases h : s.tokens[s.position]? with
  | none =>
    rw [List.drop_eq_nil_of_le (List.getElem?_eq_none_iff.mp h)]
    rfl
  | some t =>
    obtain ⟨hlt, rfl⟩ := List.getElem?_eq_some_iff.mp h
    rw [List.drop_eq_getElem_cons hlt]
    rfl

/-! ## One call -/

/-- Of the tokens `ts`, `k` were asked for, as many of them as there are. -/
structure Walked (ts : List (Placed Span Token)) (k : Nat) (s : TokenStream) : Prop where
  tokens : s.tokens = ts
  position : s.position = min k ts.length

theorem Walked.last (h : Walked (ofTokens tokens).tokens k s) :
    s.last = (ofTokens tokens).last := by
  refine last_eq_of_getLast? ?_
  rw [h.tokens]
  exact List.getLast?_eq_some_getLast (ofTokens tokens).tokens_ne_nil

theorem Walked.next (h : Walked ts k s) : Walked ts (k + 1) s.next.2 := by
  obtain ⟨rfl, hposition⟩ := h
  unfold TokenStream.next
  cases ht : s.tokens[s.position]? with
  | none =>
    have hle := List.getElem?_eq_none_iff.mp ht
    exact ⟨rfl, by show s.position = _; omega⟩
  | some t =>
    obtain ⟨hlt, -⟩ := List.getElem?_eq_some_iff.mp ht
    exact ⟨rfl, by show s.position + 1 = _; omega⟩

theorem Walked.remaining (h : Walked ts k s) : s.remaining = ts.drop k := by
  obtain ⟨rfl, hposition⟩ := h
  rw [TokenStream.remaining, hposition]
  rcases Nat.le_total k s.tokens.length with hle | hle
  · rw [Nat.min_eq_left hle]
  · rw [Nat.min_eq_right hle, List.drop_length, List.drop_eq_nil_of_le hle]

/-- What was not taken is what is still to be given. -/
theorem Walked.next_fst (h : Walked ts k s) : s.next.1 = ts[k]? := by
  rw [TokenStream.next_fst, ← List.head?_drop, ← List.head?_drop]
  exact congrArg List.head? h.remaining

/-! ## Call after call -/

theorem walked_ofTokens (tokens : List (Placed Span Token)) :
    Walked (ofTokens tokens).tokens 0 (ofTokens tokens) := ⟨rfl, (Nat.zero_min _).symm⟩

theorem Walked.after (h : Walked ts k s) (calls : List Call) :
    Walked ts (k + calls.count .next) (s.after calls) := by
  induction calls generalizing k s with
  | nil => exact h
  | cons c calls ih =>
    cases c with
    | peek | remaining => exact ih h
    | next =>
      rw [List.count_cons_self, Nat.add_comm _ 1, ← Nat.add_assoc]
      exact ih h.next

/-- The walk ends at the first end of the input just when this is the last token. -/
theorem walks_throughEnd_iff (tokens : List (Placed Span Token)) :
    (∀ calls, ((ofTokens tokens).after calls).next.1 =
        (throughEnd (ofTokens tokens).tokens)[calls.count .next]?) ↔
      ∀ t ∈ (ofTokens tokens).tokens.dropLast, t.value ≠ .endOfInput := by
  have hwalk : ∀ calls, ((ofTokens tokens).after calls).next.1 =
      (ofTokens tokens).tokens[calls.count .next]? := by
    intro calls
    have hwalked := (walked_ofTokens tokens).after calls
    rw [hwalked.next_fst, Nat.zero_add]
  have hlast := (ofTokens tokens).value_last
  rw [← throughEnd_eq_self_iff hlast, dropLast_append_last]
  constructor
  · intro h
    refine List.ext_getElem? fun k => ?_
    have hk := (hwalk (List.replicate k .next)).symm.trans (h (List.replicate k .next))
    rw [List.count_replicate_self] at hk
    exact hk.symm
  · intro h calls
    rw [h]
    exact hwalk calls

/-- The tokens of a text are walked over as they are, and only the last is an end of the input. -/
theorem tokens_of_tokenize {source : String} (h : tokenize source = .ok tokens) :
    (ofTokens tokens).tokens = tokens ∧ ∀ t ∈ tokens.dropLast, t.value ≠ .endOfInput := by
  obtain ⟨us, hus, rfl⟩ := tokenize_eq_ok_iff.mp h
  refine ⟨Cursor.remaining_ofTokens_concat us _, ?_⟩
  rw [closed, List.dropLast_concat]
  exact (munched_of_lexemes hus).not_end

/-- **Streams walk over their tokens.** For every list of tokens, put into a stream that adds the
end of the input where it is not the last of them, and for all calls in every order: the stream does
what the cursor over the tokens does; `next` gives one token after the other, each once, and nothing
behind the last of them; `peek` shows what the following `next` gives, or the last token, which is
an end of the input; and `remaining` is what `next` has still to give. The walk ends at the first
end of the input just when it is the last token; so it is for the tokens of a text. -/
theorem calls_walk (tokens : List (Placed Span Token)) :
    ((ofTokens tokens).cursor = .ofTokens tokens ∧
      ∀ s : TokenStream, s.cursor.peek = s.peek ∧
        s.cursor.next? = s.next.1.map fun t => (t, s.next.2.cursor)) ∧
    (∀ calls, ((ofTokens tokens).after calls).next.1 =
      (ofTokens tokens).tokens[calls.count .next]?) ∧
    (∀ calls, ((ofTokens tokens).after calls).peek =
      ((ofTokens tokens).after calls).next.1.getD (ofTokens tokens).last) ∧
    (ofTokens tokens).last.value = .endOfInput ∧
    (∀ calls more, (((ofTokens tokens).after calls).after more).next.1 =
      ((ofTokens tokens).after calls).remaining[more.count .next]?) ∧
    ((∀ calls, ((ofTokens tokens).after calls).next.1 =
        (throughEnd (ofTokens tokens).tokens)[calls.count .next]?) ↔
      ∀ t ∈ (ofTokens tokens).tokens.dropLast, t.value ≠ .endOfInput) ∧
    ∀ source, tokenize source = .ok tokens →
      (ofTokens tokens).tokens = tokens ∧ ∀ t ∈ tokens.dropLast, t.value ≠ .endOfInput := by
  have hwalked := (walked_ofTokens tokens).after
  simp only [Nat.zero_add] at hwalked
  refine ⟨⟨cursor_ofTokens tokens, fun s => ⟨cursor_peek s, cursor_next? s⟩⟩, ?_, ?_,
    value_last _, ?_, walks_throughEnd_iff tokens, fun source => tokens_of_tokenize⟩
  · intro calls
    exact (hwalked calls).next_fst
  · intro calls
    rw [peek, next_fst, (hwalked calls).last]
  · intro calls more
    rw [((hwalked calls).after more).next_fst, (hwalked calls).remaining, List.getElem?_drop]

/-- The tokens of `x = y` end at the first end of the input. -/
theorem calls_walk_text :
    let tokens : List (Placed Span Token) :=
      [⟨⟨0, 1⟩, .var ⟨.element, "x"⟩⟩, ⟨⟨2, 3⟩, .comparison .equal⟩,
        ⟨⟨4, 5⟩, .var ⟨.element, "y"⟩⟩, ⟨⟨5, 5⟩, .endOfInput⟩]
    tokenize "x = y" = .ok tokens ∧
      ∀ calls, ((ofTokens tokens).after calls).next.1 =
        (throughEnd tokens)[calls.count .next]? := by
  intro tokens
  have htokens : tokenize "x = y" = .ok tokens := by decide +kernel
  obtain ⟨-, -, -, -, -, hiff, htext⟩ := calls_walk tokens
  obtain ⟨hsame, hinner⟩ := htext "x = y" htokens
  rw [hsame] at hiff
  exact ⟨htokens, hiff.mpr hinner⟩

/-- With an end of the input inside of the list, the walk goes on behind it. -/
theorem calls_walk_on :
    let tokens : List (Placed Span Token) :=
      [⟨⟨0, 1⟩, .var ⟨.element, "x"⟩⟩, ⟨⟨1, 2⟩, .endOfInput⟩, ⟨⟨2, 3⟩, .comma⟩]
    (throughEnd (ofTokens tokens).tokens)[2]? = none ∧
      ((ofTokens tokens).after [.next, .next]).next.1 = some ⟨⟨2, 3⟩, .comma⟩ := by
  decide

end TokenStream

end GraphLogic
