import GraphLogic.Proofs.Text.Span
import GraphLogic.Proofs.Token.Word

/-!
# The lexical grammar

    lexeme  = "\" word | "!=" | "!" | sign | word | any other character
    text    = {blank} {lexeme {blank}}

Every lexeme is as long as possible: `Leads` says which lexeme takes which characters from the
start of a text, and `Cuts` how a text is cut into lexemes. A backslash word that is no keyword, a
backslash without a word and a character that starts nothing are lexemes, too; they are the faults.

**Theorem (`cuts_iff`).** Scanning cuts every text, and in the only way there is.

Where a text starts makes no difference but to the places of its lexemes (`scan_add`).
-/

namespace GraphLogic

/-- The token is a sign or a keyword: no name, and not the end of the input. -/
def Token.IsFixed : Token → Prop
  | edge | var _ | endOfInput => False
  | _ => True

theorem Token.isFixed_ofKeyword? {word : String} {t : Token} (h : ofKeyword? word = some t) :
    t.IsFixed := by
  unfold ofKeyword? at h
  split at h <;> cases h <;> trivial

theorem Token.isFixed_ofSign? {c : Char} {t : Token} (h : ofSign? c = some t) : t.IsFixed := by
  unfold ofSign? at h
  split at h <;> cases h <;> trivial

namespace Lexeme

/-- In a text that goes on with `tail`, the lexeme takes the characters `w`. -/
inductive Leads : Lexeme → List Char → List Char → Prop
  | keyword {w tail : List Char} {t : Token} :
      IsWord w → Token.ofKeyword? (String.ofList w) = some t → EndsBefore w tail →
      Leads (token t) ('\\' :: w) tail
  | unknownKeyword {w tail : List Char} :
      IsWord w → Token.ofKeyword? (String.ofList w) = none → EndsBefore w tail →
      Leads (fault (.unknownKeyword (String.ofList w))) ('\\' :: w) tail
  | missingKeyword {tail : List Char} :
      (∀ c ∈ tail.head?, isLetter c = false) → Leads (fault .missingKeyword) ['\\'] tail
  | unequal {tail : List Char} : Leads (token (.comparison .unequal)) ['!', '='] tail
  | negation {tail : List Char} : tail.head? ≠ some '=' → Leads (token .negation) ['!'] tail
  | sign {c : Char} {tail : List Char} {t : Token} :
      Token.ofSign? c = some t → Leads (token t) [c] tail
  | name {w tail : List Char} :
      IsWord w → EndsBefore w tail → Leads (token (.ofName (String.ofList w))) w tail
  | illegal {c : Char} {tail : List Char} :
      isBlank c = false → isLetter c = false → c ∉ marks →
      Leads (fault (.illegalCharacter c)) [c] tail

/-- From the offset `start` on, the text is cut into these lexemes. -/
inductive Cuts : Nat → List Char → List (Placed Span Lexeme) → Prop
  | done {start : Nat} : Cuts start [] []
  | blank {start : Nat} {c : Char} {text : List Char} {ls : List (Placed Span Lexeme)} :
      isBlank c = true → Cuts (start + 1) text ls → Cuts start (c :: text) ls
  | lexeme {start : Nat} {l : Lexeme} {w tail : List Char} {ls : List (Placed Span Lexeme)} :
      Leads l w tail → Cuts (start + w.length) tail ls →
      Cuts start (w ++ tail) (⟨⟨start, start + w.length⟩, l⟩ :: ls)

variable {c : Char} {w tail rest text : List Char} {l : Lexeme} {t : Token} {start : Nat}
  {ls : List (Placed Span Lexeme)}

/-! ## The first lexeme of a text -/

theorem Leads.ne_nil (h : Leads l w tail) : ∃ c rest, w = c :: rest := by
  cases h with
  | name hw _ =>
    obtain ⟨c, rest, rfl, -⟩ := hw.head
    exact ⟨c, rest, rfl⟩
  | _ => exact ⟨_, _, rfl⟩

/-- No lexeme has a blank in it. -/
theorem Leads.not_blank (h : Leads l w tail) : ∀ c ∈ w, isBlank c = false := by
  have hmark : ∀ c ∈ marks, isBlank c = false := fun c hc => not_blank_of_mark hc
  cases h with
  | keyword hw _ _ | unknownKeyword hw _ _ =>
    exact List.forall_mem_cons.mpr ⟨hmark '\\' (by decide), fun c hc => hw.not_blank hc⟩
  | missingKeyword _ => simpa using hmark '\\' (by decide)
  | unequal => simpa using ⟨hmark '!' (by decide), hmark '=' (by decide)⟩
  | negation _ => simpa using hmark '!' (by decide)
  | @sign c _ _ ht =>
    have hc : c ∈ Token.signs := Token.exists_ofSign?_iff.mp ⟨_, ht⟩
    simpa using hmark c (List.mem_cons_of_mem _ (List.mem_cons_of_mem _ hc))
  | name hw _ => exact fun c hc => hw.not_blank hc
  | illegal hc _ _ => simpa using hc

theorem Leads.isFixed_or_name (h : Leads (token t) w tail) :
    t.IsFixed ∨ IsWord w ∧ t = .ofName (String.ofList w) := by
  cases h with
  | keyword _ ht _ => exact Or.inl (Token.isFixed_ofKeyword? ht)
  | unequal | negation _ => exact Or.inl trivial
  | sign ht => exact Or.inl (Token.isFixed_ofSign? ht)
  | name hw _ => exact Or.inr ⟨hw, rfl⟩

theorem ofKeyword_of_isWord (hw : IsWord w) :
    ofKeyword w = match Token.ofKeyword? (String.ofList w) with
      | some t => token t
      | none => fault (.unknownKeyword (String.ofList w)) := by
  obtain ⟨c, rest, rfl, -⟩ := hw.head
  rfl

theorem not_marks (hc : c ∉ marks) : c ≠ '\\' ∧ c ≠ '!' ∧ Token.ofSign? c = none := by
  simp only [marks, List.mem_cons, not_or] at hc
  refine ⟨hc.1, hc.2.1, Option.eq_none_iff_forall_ne_some.mpr fun t ht => ?_⟩
  exact hc.2.2 (Token.exists_ofSign?_iff.mp ⟨t, ht⟩)

theorem not_mark_of_letter (hc : isLetter c = true) : c ∉ marks := fun hmark =>
  Bool.false_ne_true ((not_letter_of_mark hmark).symm.trans hc)

theorem ne_of_sign (ht : Token.ofSign? c = some t) : c ≠ '\\' ∧ c ≠ '!' := by
  constructor <;> rintro rfl <;> cases ht

theorem first_of_leads (h : Leads l (c :: rest) tail) :
    first c (rest ++ tail) = (l, rest.length) := by
  unfold first
  cases h with
  | keyword hw ht htail | unknownKeyword hw ht htail =>
    simp [leadingWord_append hw htail, ofKeyword_of_isWord hw, ht]
  | missingKeyword htail => simp [leadingWord_eq_nil_iff.mpr htail, ofKeyword]
  | unequal => simp
  | negation htail => simp [htail]
  | sign ht =>
    obtain ⟨hslash, hbang⟩ := ne_of_sign ht
    simp [hslash, hbang, ht]
  | name hw htail =>
    obtain ⟨d, ds, heq, hletter⟩ := hw.head
    obtain ⟨rfl, rfl⟩ := List.cons.inj heq
    obtain ⟨hslash, hbang, hsign⟩ := not_marks (not_mark_of_letter hletter)
    have hword : leadingWord (c :: (rest ++ tail)) = c :: rest := leadingWord_append hw htail
    simp [hslash, hbang, hsign, hletter, hword]
  | illegal _ hletter hc =>
    obtain ⟨hslash, hbang, hsign⟩ := not_marks hc
    simp [hslash, hbang, hsign, hletter]

theorem exists_leads_backslash (text : List Char) :
    ∃ l w tail, '\\' :: text = w ++ tail ∧ Leads l w tail := by
  by_cases h : leadingWord text = []
  · exact ⟨_, ['\\'], text, rfl, .missingKeyword (leadingWord_eq_nil_iff.mp h)⟩
  · obtain ⟨hword, tail, htext, htail⟩ := exists_leadingWord h
    have hsplit : '\\' :: text = '\\' :: leadingWord text ++ tail := congrArg ('\\' :: ·) htext
    cases hkeyword : Token.ofKeyword? (String.ofList (leadingWord text)) with
    | none => exact ⟨_, _, tail, hsplit, .unknownKeyword hword hkeyword htail⟩
    | some t => exact ⟨_, _, tail, hsplit, .keyword hword hkeyword htail⟩

/-- A text that does not start with a blank starts with a lexeme. -/
theorem exists_leads (hc : isBlank c = false) (text : List Char) :
    ∃ l w tail, c :: text = w ++ tail ∧ Leads l w tail := by
  by_cases hletter : isLetter c = true
  · have hne : leadingWord (c :: text) ≠ [] := by simp [leadingWord_eq_nil_iff, hletter]
    obtain ⟨hword, tail, htext, htail⟩ := exists_leadingWord hne
    exact ⟨_, _, tail, htext, .name hword htail⟩
  by_cases hmark : c ∈ marks
  · rcases List.mem_cons.mp hmark with rfl | hmark
    · exact exists_leads_backslash text
    rcases List.mem_cons.mp hmark with rfl | hsign
    · by_cases hhead : text.head? = some '='
      · obtain ⟨tail, rfl⟩ := List.head?_eq_some_iff.mp hhead
        exact ⟨_, ['!', '='], tail, rfl, .unequal⟩
      · exact ⟨_, ['!'], text, rfl, .negation hhead⟩
    · obtain ⟨t, ht⟩ := Token.exists_ofSign?_iff.mpr hsign
      exact ⟨_, [c], text, rfl, .sign ht⟩
  · exact ⟨_, [c], text, rfl, .illegal hc (Bool.not_eq_true _ ▸ hletter) hmark⟩

/-! ## Whole texts -/

theorem scan_of_leads (h : Leads l w tail) (start : Nat) :
    scan start (w ++ tail) = ⟨⟨start, start + w.length⟩, l⟩ :: scan (start + w.length) tail := by
  obtain ⟨c, rest, rfl⟩ := h.ne_nil
  have hblank := h.not_blank c List.mem_cons_self
  rw [List.cons_append, scan, if_neg (by simp [hblank]), first_of_leads h]
  simp [Nat.add_assoc, Nat.add_comm 1]

theorem Cuts.scan_eq (h : Cuts start text ls) : scan start text = ls := by
  induction h with
  | done => rw [scan]
  | blank hc _ ih => rw [scan, if_pos hc, ih]
  | lexeme hl _ ih => rw [scan_of_leads hl, ih]

theorem cuts_scan (start : Nat) (text : List Char) : Cuts start text (scan start text) := by
  match text with
  | [] =>
    rw [scan]
    exact .done
  | c :: text =>
    by_cases hc : isBlank c = true
    · rw [scan, if_pos hc]
      exact .blank hc (cuts_scan (start + 1) text)
    · obtain ⟨l, w, tail, htext, hl⟩ := exists_leads (Bool.not_eq_true _ ▸ hc) text
      rw [htext, scan_of_leads hl]
      exact .lexeme hl (cuts_scan (start + w.length) tail)
termination_by text.length
decreasing_by
  · simp
  · obtain ⟨d, rest, rfl⟩ := hl.ne_nil
    have := congrArg List.length htext
    simp only [List.length_cons, List.length_append] at this ⊢
    omega

/-- **Scanning follows the lexical grammar.** -/
theorem cuts_iff : Cuts start text ls ↔ scan start text = ls := by
  constructor
  · exact Cuts.scan_eq
  · rintro rfl
    exact cuts_scan start text

/-! ## Where a text starts -/

theorem Cuts.shiftRight (k : Nat) (h : Cuts start text ls) :
    Cuts (start + k) text (ls.map (·.mapPlace (Span.shiftRight k))) := by
  induction h with
  | done => exact .done
  | @blank start c text ls hc _ ih =>
    rw [Nat.add_right_comm] at ih
    exact .blank hc ih
  | @lexeme start l w tail ls hl _ ih =>
    have hplace : Span.shiftRight k ⟨start, start + w.length⟩ =
        ⟨start + k, start + k + w.length⟩ := by
      rw [Span.shiftRight, Nat.add_right_comm]
    rw [Nat.add_right_comm] at ih
    rw [List.map_cons, Placed.mapPlace, hplace]
    exact .lexeme hl ih

/-- A text that starts further right is cut in the same way, further right. -/
theorem scan_add (start k : Nat) (text : List Char) :
    scan (start + k) text = (scan start text).map (·.mapPlace (Span.shiftRight k)) :=
  ((cuts_scan start text).shiftRight k).scan_eq

end Lexeme

end GraphLogic
