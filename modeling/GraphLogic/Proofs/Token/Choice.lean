import GraphLogic.Proofs.Token.Grammar
import GraphLogic.Token.Choice

/-!
# The ordered choice of lexemes never fails

**Theorem (`lexer_eq`).** Trying the alternatives in order always comes to the end of the text, with
the lexemes that scanning finds.

The alternatives start with different characters, so where the lexical grammar has a lexeme, the
first fitting alternative reads just this one (`choice_of_leads`).
-/

namespace GraphLogic

namespace Lexeme

variable {α : Type} {p q : Scan α} {a : α} {text rest w tail : List Char} {c : Char} {l : Lexeme}
  {start : Nat} {ls : List (Placed Span Lexeme)}

/-! ## Running scanners -/

section

variable {β : Type}

theorem run_bind (p : Scan α) (f : α → Scan β) (text : List Char) :
    (p >>= f) text = (p text).bind fun r => f r.1 r.2 := rfl

theorem run_pure (a : α) (text : List Char) : (pure a : Scan α) text = some (a, text) := rfl

theorem run_map (f : α → β) (p : Scan α) (text : List Char) :
    (f <$> p) text = (p text).map fun r => (f r.1, r.2) := by
  show (p text).bind _ = _
  cases p text <;> rfl

theorem run_get (text : List Char) : (get : Scan (List Char)) text = some (text, text) := rfl

theorem run_orElse (p q : Scan α) (text : List Char) :
    (p <|> q) text = (p text).or (q text) := by
  show (p text).orElse _ = _
  cases p text <;> rfl

theorem run_maybe (p : Scan α) (text : List Char) :
    Scan.maybe p text = some (((p text).map fun r => (some r.1, r.2)).getD (none, text)) := by
  unfold Scan.maybe
  rw [run_orElse, run_map]
  cases p text <;> rfl

theorem run_char (p : Char → Bool) (c : Char) (text : List Char) :
    Scan.char p (c :: text) = if p c then some (c, text) else none := rfl

end

theorem run_word (hw : IsWord w) (htail : EndsBefore w tail) :
    word (w ++ tail) = some (w, tail) := by
  obtain ⟨c, rest, rfl, hc⟩ := hw.head
  have hlead := leadingWord_append hw htail
  have hrun : word (c :: rest ++ tail) = some (leadingWord (c :: rest ++ tail),
      ((c :: rest ++ tail).dropWhile isLetter).dropWhile Char.isDigit) := by
    simp [word, Scan.run1, Scan.run, run_bind, run_map, run_char, leadingWord, hc]
  rw [hrun, hlead]
  have hsplit : leadingWord (c :: rest ++ tail) ++
      ((c :: rest ++ tail).dropWhile isLetter).dropWhile Char.isDigit = c :: rest ++ tail := by
    simp [leadingWord, hc]
  rw [hlead] at hsplit
  rw [List.append_cancel_left hsplit]

theorem run_word_none (h : ∀ c ∈ text.head?, isLetter c = false) : word text = none := by
  cases text with
  | nil => rfl
  | cons c text =>
    have hc : isLetter c = false := h c rfl
    simp [word, Scan.run1, run_bind, run_char, hc]

theorem backslash_none (hc : c ≠ '\\') (text : List Char) : backslash (c :: text) = none := by
  simp [backslash, run_bind, run_char, hc]

theorem bang_none (hc : c ≠ '!') (text : List Char) : bang (c :: text) = none := by
  simp [bang, run_bind, run_char, hc]

theorem sign_none (hc : Token.ofSign? c = none) (text : List Char) :
    sign (c :: text) = none := by
  simp [sign, hc]

/-- Where the lexical grammar has a lexeme, it is what the first fitting alternative reads. -/
theorem choice_of_leads (h : Leads l w tail) : choice (w ++ tail) = some (l, tail) := by
  unfold choice
  simp only [run_orElse]
  cases h with
  | keyword hw ht htail | unknownKeyword hw ht htail =>
    have hread := run_word hw htail
    simp [backslash, run_map, run_bind, run_char, run_maybe, hread, ofKeyword_of_isWord hw, ht]
  | missingKeyword htail =>
    have hread := run_word_none htail
    simp [backslash, run_map, run_bind, run_char, run_maybe, hread, ofKeyword]
  | unequal =>
    simp [backslash_none, bang, run_bind, run_char, run_maybe, run_pure]
  | negation htail =>
    have hread : Scan.char (· == '=') tail = none := by
      cases tail with
      | nil => rfl
      | cons c tail =>
        have hc : c ≠ '=' := by simpa using htail
        simp [run_char, hc]
    simp [backslash_none, bang, run_bind, run_char, run_maybe, run_pure, hread]
  | @sign c _ _ ht =>
    obtain ⟨hslash, hbang⟩ := ne_of_sign ht
    simp [backslash_none hslash, bang_none hbang, sign, ht]
  | name hw htail =>
    obtain ⟨c, rest, rfl, hletter⟩ := hw.head
    obtain ⟨hslash, hbang, hsign⟩ := not_marks (not_mark_of_letter hletter)
    have hread := run_word hw htail
    rw [List.cons_append] at hread ⊢
    simp [backslash_none hslash, bang_none hbang, sign_none hsign, name, run_map, hread]
  | @illegal c _ _ hletter hc =>
    obtain ⟨hslash, hbang, hsign⟩ := not_marks hc
    have hread : word (c :: tail) = none := run_word_none (by simp [hletter])
    simp [backslash_none hslash, bang_none hbang, sign_none hsign, name, illegal, run_map, hread,
      run_char]

/-! ## Whole texts -/

theorem run_seqLeft {β : Type} (p : Scan α) (q : Scan β) (text : List Char) :
    (p <* q) text = (p text).bind fun r => (q r.2).map fun s => (r.1, s.2) := by
  show (p text).bind _ = _
  cases p text with
  | none => rfl
  | some r =>
    show (q r.2).bind _ = (q r.2).map _
    cases q r.2 <;> rfl

theorem run_blanks (text : List Char) :
    Scan.run isBlank text = some (text.takeWhile isBlank, text.dropWhile isBlank) := rfl

/-- One lexeme and the blanks behind it. -/
theorem run_located {stop : Nat} (h : Leads l w tail) (hstop : stop = start + (w ++ tail).length) :
    (located stop choice <* Scan.run isBlank) (w ++ tail) =
      some (⟨⟨start, start + w.length⟩, l⟩, tail.dropWhile isBlank) := by
  rw [List.length_append] at hstop
  have hbefore : stop - (w.length + tail.length) = start := by omega
  have hbehind : stop - tail.length = start + w.length := by omega
  rw [run_seqLeft, located]
  simp [run_bind, run_get, run_map, run_blanks, choice_of_leads h, hbefore, hbehind]

theorem run_located_nil (stop : Nat) :
    (located stop choice <* Scan.run isBlank) [] = none := rfl

/-- The loop reads the lexemes of the grammar, blanks skipped, and leaves nothing. -/
theorem manyUpTo_of_cuts {stop limit : Nat} (h : Cuts start text ls)
    (hstop : stop = start + text.length) (hlimit : (text.dropWhile isBlank).length ≤ limit) :
    Scan.manyUpTo limit (located stop choice <* Scan.run isBlank) (text.dropWhile isBlank) =
      some (ls, []) := by
  induction h generalizing limit with
  | done =>
    cases limit with
    | zero => rfl
    | succ limit => simp [Scan.manyUpTo, run_bind, run_maybe, run_located_nil, run_pure]
  | blank hc _ ih =>
    rw [List.dropWhile_cons_of_pos hc] at hlimit ⊢
    rw [List.length_cons] at hstop
    exact ih (by omega) hlimit
  | @lexeme start l w tail ls hl _ ih =>
    obtain ⟨c, rest, rfl⟩ := hl.ne_nil
    have hc : isBlank c = false := hl.not_blank c List.mem_cons_self
    have hskip : (c :: rest ++ tail).dropWhile isBlank = c :: rest ++ tail := by simp [hc]
    have htail : (tail.dropWhile isBlank).length ≤ tail.length :=
      (List.dropWhile_suffix isBlank).length_le
    rw [hskip] at hlimit ⊢
    cases limit with
    | zero => simp at hlimit
    | succ limit =>
      have hlimit' : (tail.dropWhile isBlank).length ≤ limit := by
        simp at hlimit
        omega
      have hrest := ih (by simp at hstop ⊢; omega) hlimit'
      have hread := run_located hl hstop
      rw [List.cons_append] at hread
      simp [Scan.manyUpTo, run_bind, run_maybe, hread, run_map, hrest]

/-- **The ordered choice never fails.** It comes to the end of every text, and reads the lexemes
that scanning finds. -/
theorem lexer_eq (text : List Char) : lexer text = some (scan 0 text, []) := by
  have hmany : Scan.many (located text.length choice <* Scan.run isBlank)
      (text.dropWhile isBlank) = some (scan 0 text, []) :=
    manyUpTo_of_cuts (cuts_scan 0 text) (Nat.zero_add _).symm (Nat.le_refl _)
  simp [lexer, run_bind, run_get, run_blanks, hmany, run_map, Scan.ended]

end Lexeme

end GraphLogic
