import GraphLogic.Proofs.Formula.Text

/-!
# Blanks around lexemes

**Theorem (`Lexeme.Cuts.append`).** A text with a blank behind it, and more behind the blank, is cut
into the lexemes of the two parts.

A blank prolongs no lexeme (`Lexeme.Leads.append`), so what stands behind it does not matter. It
follows that the blanks at the ends of a text make no difference to its lexemes
(`Lexeme.values_trim`): what is trimmed from a text is just what separates its lexemes.
-/

namespace GraphLogic

variable {c : Char} {w tail more text bs : List Char}

theorem not_letter_of_blank (hc : isBlank c = true) : isLetter c = false :=
  Bool.eq_false_iff.mpr fun h => Bool.false_ne_true ((not_blank_of_letter h).symm.trans hc)

theorem not_digit_of_blank (hc : isBlank c = true) : c.isDigit = false :=
  Bool.eq_false_iff.mpr fun h => Bool.false_ne_true ((not_blank_of_digit h).symm.trans hc)

theorem not_prolongs_of_blank (hc : isBlank c = true) (w : List Char) : ¬ Prolongs w c := by
  rintro (hdigit | ⟨hletter, -⟩)
  · exact Bool.false_ne_true ((not_digit_of_blank hc).symm.trans hdigit)
  · exact Bool.false_ne_true ((not_letter_of_blank hc).symm.trans hletter)

/-- The text is empty or starts with a blank. -/
def BlankFirst (text : List Char) : Prop := ∀ c ∈ text.head?, isBlank c = true

theorem blankFirst_of_forall (h : ∀ c ∈ bs, isBlank c = true) : BlankFirst bs := fun c hc =>
  h c (List.mem_of_head? hc)

theorem exists_trimEnd (text : List Char) :
    ∃ bs, (∀ c ∈ bs, isBlank c = true) ∧ trimEnd text ++ bs = text := by
  refine ⟨(text.reverse.takeWhile isBlank).reverse, fun c hc => ?_, ?_⟩
  · exact List.mem_takeWhile_imp (List.mem_reverse.mp hc)
  · rw [trimEnd, ← List.reverse_append, List.takeWhile_append_dropWhile, List.reverse_reverse]

/-- What can stand behind some characters is decided by the first of them, if there is one. -/
theorem forall_head_append {P : Char → Prop} (hmore : BlankFirst more)
    (hblank : ∀ c, isBlank c = true → P c) (htail : ∀ c ∈ tail.head?, P c) :
    ∀ c ∈ (tail ++ more).head?, P c := by
  cases tail with
  | nil => exact fun c hc => hblank c (hmore c hc)
  | cons d tail => exact htail

theorem EndsBefore.append (htail : EndsBefore w tail) (hmore : BlankFirst more) :
    EndsBefore w (tail ++ more) :=
  forall_head_append hmore (fun _ hc => not_prolongs_of_blank hc w) htail

namespace Lexeme

variable {start : Nat} {l : Lexeme} {ls ls' : List (Placed Span Lexeme)}

/-- A lexeme that leads a text leads it also when a blank and more is put behind the text. -/
theorem Leads.append (h : Leads l w tail) (hmore : BlankFirst more) : Leads l w (tail ++ more) := by
  cases h with
  | keyword hw ht htail => exact .keyword hw ht (htail.append hmore)
  | unknownKeyword hw ht htail => exact .unknownKeyword hw ht (htail.append hmore)
  | missingKeyword htail =>
    exact .missingKeyword (forall_head_append hmore (fun _ => not_letter_of_blank) htail)
  | unequal => exact .unequal
  | negation htail =>
    refine .negation fun hc => ?_
    have hne : ∀ c ∈ (tail ++ more).head?, c ≠ '=' := by
      refine forall_head_append hmore ?_ fun c hc heq => htail (heq ▸ hc)
      rintro c hc rfl
      exact Bool.false_ne_true ((not_blank_of_mark (by decide)).symm.trans hc)
    exact hne '=' hc rfl
  | sign ht => exact .sign ht
  | name hw htail => exact .name hw (htail.append hmore)
  | illegal hblank hletter hc => exact .illegal hblank hletter hc

/-- **Texts with a blank between them** are cut one after the other. -/
theorem Cuts.append (h : Cuts start text ls) (hmore : BlankFirst more)
    (h' : Cuts (start + text.length) more ls') : Cuts start (text ++ more) (ls ++ ls') := by
  induction h with
  | done => exact h'
  | @blank start c text ls hc _ ih =>
    refine .blank hc (ih ?_)
    rwa [List.length_cons, Nat.add_comm text.length, ← Nat.add_assoc] at h'
  | @lexeme start l w tail ls hl _ ih =>
    rw [List.append_assoc, List.cons_append]
    refine .lexeme (hl.append hmore) (ih ?_)
    rwa [List.length_append, ← Nat.add_assoc] at h'

theorem scan_append (start : Nat) (text : List Char) (hmore : BlankFirst more) :
    scan start (text ++ more) = scan start text ++ scan (start + text.length) more :=
  ((cuts_scan start text).append hmore (cuts_scan _ more)).scan_eq

theorem scan_blanks (hbs : ∀ c ∈ bs, isBlank c = true) (start : Nat) (text : List Char) :
    scan start (bs ++ text) = scan (start + bs.length) text := by
  induction bs generalizing start with
  | nil => rfl
  | cons b bs ih =>
    obtain ⟨hb, hbs⟩ := List.forall_mem_cons.mp hbs
    rw [List.cons_append, scan, if_pos hb, ih hbs, List.length_cons, Nat.add_comm bs.length,
      Nat.add_assoc]

theorem values_append (text : List Char) (hmore : BlankFirst more) :
    values (text ++ more) = values text ++ values more := by
  rw [values, scan_append 0 text hmore, List.map_append, map_value_scan, map_value_scan]

theorem values_blanks (hbs : ∀ c ∈ bs, isBlank c = true) (text : List Char) :
    values (bs ++ text) = values text := by
  rw [values, scan_blanks hbs, map_value_scan]

/-- Blanks at the ends of a text make no difference to its lexemes. -/
theorem values_trim (text : List Char) : values (trim text) = values text := by
  obtain ⟨bs, hbs, hend⟩ := exists_trimEnd (text.dropWhile isBlank)
  have hnone : values bs = [] := by
    rw [← List.append_nil bs, values_blanks hbs, values_nil]
  have hstart : ∀ c ∈ text.takeWhile isBlank, isBlank c = true := fun c hc =>
    List.mem_takeWhile_imp hc
  calc values (trim text)
      = values (trim text) ++ values bs := by rw [hnone, List.append_nil]
    _ = values (trim text ++ bs) := (values_append _ (blankFirst_of_forall hbs)).symm
    _ = values (text.dropWhile isBlank) := congrArg values hend
    _ = values (text.takeWhile isBlank ++ text.dropWhile isBlank) :=
        (values_blanks hstart _).symm
    _ = values text := by rw [List.takeWhile_append_dropWhile]

end Lexeme

end GraphLogic
