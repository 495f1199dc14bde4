import GraphLogic.Formula.Writing
import GraphLogic.Proofs.Formula.Text

/-!
# Written formulas are read back

**Theorem (`write_round_trip`).** A formula that is written, in either spelling, is read back as
itself exactly when it is well-formed. So the formula of every text that can be read survives.

A written formula spells its tokens (`spells_write`), because what stands behind each word that is
written cannot prolong it; and its tokens are a sentence of the grammar with the formula as its tree
(`sentence_tokens`), because every operand stands in parentheses. Conversely everything that is read
is well-formed, whatever the text.
-/

namespace GraphLogic

open Lexeme

/-! ## The tokens of a formula -/

def inParens (p : List Token) : List Token := .leftParen :: (p ++ [.rightParen])

/-- The tokens that the formula is written with. -/
def Formula.tokens {σ : Type} : Formula σ → List Token
  | quantified _ q x φ => .quantifier q.value :: .var x.value :: inParens φ.tokens
  | binary _ c φ ψ => inParens φ.tokens ++ .connective c.value :: inParens ψ.tokens
  | negation _ _ φ => .negation :: inParens φ.tokens
  | comparison _ o x y => [.var x.value, .comparison o.value, .var y.value]
  | relation _ r xs => r.value.token :: inParens (varList (xs.map (·.value)))

theorem sentence_tokens {φ : Formula Unit} (h : φ.WellFormed) : Sentence .formula φ.tokens φ := by
  induction φ with
  | quantified p q x φ ih =>
    exact .operand (.unnegated (.bound (.parenthesized (ih h.2))))
  | binary p c φ ψ ihφ ihψ =>
    have hleft : Sentence .formula (inParens φ.tokens) φ :=
      .operand (.unnegated (.parenthesized (ihφ h.1)))
    exact .connected hleft (.unnegated (.parenthesized (ihψ h.2)))
  | negation p sign φ ih =>
    exact .operand (.negated (.unnegated (.parenthesized (ih h))))
  | comparison p o x y => exact .operand (.unnegated .compared)
  | relation p r xs =>
    have hne : xs.map (·.value) ≠ [] := fun hnil => h.2.1 (List.map_eq_nil_iff.mp hnil)
    have hxs : (xs.map (·.value)).map (fun x => (⟨(), x⟩ : Placed Unit Variable)) = xs := by
      rw [List.map_map]
      exact List.map_id xs
    have hrelated := Sentence.related (r := r.value) hne
    rw [hxs] at hrelated
    exact .operand (.unnegated hrelated)

/-! ## Texts of single tokens -/

/-- No word goes on with the text. -/
def Breaks (text : List Char) : Prop := ∀ c ∈ text.head?, isLetter c = false ∧ c.isDigit = false

variable {c : Char} {w tail : List Char} {t : Token} {x : Variable} {s : Spelling}

theorem Breaks.endsBefore (h : Breaks tail) (w : List Char) : EndsBefore w tail := by
  intro c hc hlonger
  obtain ⟨hletter, hdigit⟩ := h c hc
  rcases hlonger with hlonger | ⟨hlonger, -⟩
  · exact Bool.false_ne_true (hdigit.symm.trans hlonger)
  · exact Bool.false_ne_true (hletter.symm.trans hlonger)

theorem breaks_nil : Breaks [] := by simp [Breaks]

/-- The characters that are written behind words. -/
theorem breaks_cons (hc : c ∈ [' ', '(', ')', ',']) (tail : List Char) : Breaks (c :: tail) := by
  intro d hd
  obtain rfl : c = d := Option.some_inj.mp hd
  have hletter : isLetter c = false := by
    rcases List.mem_cons.mp hc with rfl | hc
    · exact Bool.eq_false_iff.mpr fun h => absurd (not_blank_of_letter h) (by decide)
    · have hmarks : ['(', ')', ','] ⊆ Lexeme.marks := by decide
      exact not_letter_of_mark (hmarks hc)
  have hdigits : [' ', '(', ')', ','].any Char.isDigit = false := by decide
  exact ⟨hletter, Bool.eq_false_iff.mpr (List.any_eq_false.mp hdigits c hc)⟩

theorem values_space (tail : List Char) : values (' ' :: tail) = values tail :=
  values_blank (by decide) tail

theorem values_sign (ht : Token.ofSign? c = some t) (tail : List Char) :
    values (c :: tail) = token t :: values tail :=
  values_of_leads (.sign ht)

theorem isWord_of_isAlpha (hne : w ≠ []) (hw : w.all Char.isAlpha = true) : IsWord w :=
  ⟨w, [], hne, fun c hc => isLetter_of_isAlpha (List.all_eq_true.mp hw c hc), by simp,
    (List.append_nil w).symm⟩

theorem values_keyword (hne : w ≠ []) (hw : w.all Char.isAlpha = true)
    (ht : Token.ofKeyword? (String.ofList w) = some t) (htail : Breaks tail) :
    values ('\\' :: w ++ tail) = token t :: values tail :=
  values_of_leads (.keyword (isWord_of_isAlpha hne hw) ht (htail.endsBefore w))

theorem values_name (hx : x.WellNamed) (htail : Breaks tail) :
    values (x.name.toList ++ tail) = token (.var x) :: values tail := by
  obtain ⟨hword, hvar⟩ := Variable.wellNamed_iff.mp hx
  have hleads := Leads.name hword (htail.endsBefore _)
  rw [String.ofList_toList, hvar] at hleads
  exact values_of_leads hleads

theorem values_symbol {r : Relation} (hr : r.WellNamed) (htail : Breaks tail) :
    values (r.name.toList ++ tail) = token r.token :: values tail := by
  cases r with
  | edge =>
    have hword : IsWord ['E'] := isWord_of_isAlpha (by simp) (by decide)
    exact values_of_leads (.name hword (htail.endsBefore _))
  | set name => exact values_name (x := ⟨.set, name⟩) hr htail

theorem values_quantifier (s : Spelling) (q : Quantifier) (tail : List Char) :
    values ((s.quantifier q).toList ++ tail) = token (.quantifier q) :: values tail := by
  have hspace : Breaks (' ' :: tail) := breaks_cons (by simp) tail
  cases s with
  | symbols => cases q <;> exact values_sign rfl tail
  | words =>
    rw [← values_space tail]
    cases q with
    | existential =>
      exact values_keyword (w := "exists".toList) (by decide) (by decide) rfl hspace
    | universal =>
      exact values_keyword (w := "forall".toList) (by decide) (by decide) rfl hspace

theorem values_connective (s : Spelling) (k : Connective) (htail : Breaks tail) :
    values ((s.connective k).toList ++ tail) = token (.connective k) :: values tail := by
  cases s with
  | symbols => cases k <;> exact values_sign rfl tail
  | words =>
    cases k with
    | and => exact values_keyword (w := "land".toList) (by decide) (by decide) rfl htail
    | or => exact values_keyword (w := "lor".toList) (by decide) (by decide) rfl htail
    | implies =>
      exact values_keyword (w := "implies".toList) (by decide) (by decide) rfl htail
    | iff => exact values_keyword (w := "iff".toList) (by decide) (by decide) rfl htail

theorem values_negation (s : Spelling) (htail : Breaks tail) :
    values (s.negation.toList ++ tail) = token .negation :: values tail := by
  cases s with
  | symbols => exact values_sign rfl tail
  | words => exact values_keyword (w := "neg".toList) (by decide) (by decide) rfl htail

theorem values_comparison (s : Spelling) (o : Comparison) (htail : Breaks tail) :
    values ((s.comparison o).toList ++ tail) = token (.comparison o) :: values tail := by
  cases o with
  | equal => cases s <;> exact values_sign rfl tail
  | unequal =>
    cases s with
    | symbols => exact values_sign rfl tail
    | words => exact values_keyword (w := "neq".toList) (by decide) (by decide) rfl htail

/-! ## Texts of formulas -/

/-- The text spells the tokens, whatever stands behind it, unless that goes on with a word. -/
def Spells (text : List Char) (p : List Token) : Prop :=
  ∀ tail, Breaks tail → values (text ++ tail) = p.map token ++ values tail

theorem Spells.inParens {text : List Char} {p : List Token} (h : Spells text p)
    (tail : List Char) :
    values ('(' :: (text ++ ')' :: tail)) = (inParens p).map token ++ values tail := by
  have hclose := h (')' :: tail) (breaks_cons (by simp) tail)
  rw [values_sign rfl, hclose, values_sign rfl, GraphLogic.inParens]
  simp

theorem spells_varList {xs : List Variable} (hne : xs ≠ []) (hxs : ∀ x ∈ xs, x.WellNamed) :
    Spells ([',', ' '].intercalate (xs.map (·.name.toList))) (varList xs) := by
  obtain ⟨x, xs, rfl⟩ := List.exists_cons_of_ne_nil hne
  induction xs generalizing x with
  | nil =>
    intro tail htail
    simpa [varList] using values_name (hxs x List.mem_cons_self) htail
  | cons y ys ih =>
    intro tail htail
    have hy : ∀ z ∈ y :: ys, z.WellNamed := fun z hz => hxs z (List.mem_cons_of_mem _ hz)
    have hrest := ih y (List.cons_ne_nil _ _) hy tail htail
    simp only [List.map_cons, List.intercalate_cons_cons, List.append_assoc, List.cons_append,
      List.nil_append] at hrest ⊢
    rw [values_name (hxs x List.mem_cons_self) (breaks_cons (by simp) _), values_sign rfl,
      values_space, hrest]
    rfl

theorem spells_write (s : Spelling) {σ : Type} {φ : Formula σ} (h : φ.WellFormed) :
    Spells (φ.write s).toList φ.tokens := by
  have hopen : ∀ tail, Breaks ('(' :: tail) := breaks_cons (by simp)
  have hspace : ∀ tail, Breaks (' ' :: tail) := breaks_cons (by simp)
  induction φ with
  | quantified p q x φ ih =>
    intro tail _
    simp only [Formula.write, Formula.tokens, String.toList_append, String.reduceToList,
      List.append_assoc, List.cons_append, List.nil_append, List.map_cons]
    rw [values_quantifier, values_name h.1 (hopen _), (ih h.2).inParens]
  | binary p k φ ψ ihφ ihψ =>
    intro tail _
    simp only [Formula.write, Formula.tokens, String.toList_append, String.reduceToList,
      List.append_assoc, List.cons_append, List.nil_append, List.map_append, List.map_cons]
    rw [(ihφ h.1).inParens, values_space, values_connective s k.value (hspace _), values_space,
      (ihψ h.2).inParens]
  | negation p sign φ ih =>
    intro tail _
    simp only [Formula.write, Formula.tokens, String.toList_append, String.reduceToList,
      List.append_assoc, List.cons_append, List.nil_append, List.map_cons]
    rw [values_negation s (hopen _), (ih h).inParens]
  | comparison p o x y =>
    intro tail htail
    simp only [Formula.write, Formula.tokens, String.toList_append, String.reduceToList,
      List.append_assoc, List.cons_append, List.nil_append, List.map_cons, List.map_nil]
    rw [values_name h.1 (hspace _), values_space, values_comparison s o.value (hspace _),
      values_space, values_name h.2 htail]
  | relation p r xs =>
    have hne : xs.map (·.value) ≠ [] := fun hnil => h.2.1 (List.map_eq_nil_iff.mp hnil)
    have hlist := spells_varList hne (List.forall_mem_map.mpr h.2.2)
    rw [List.map_map] at hlist
    intro tail _
    simp only [Formula.write, Formula.tokens, String.toList_append, String.toList_intercalate,
      String.reduceToList, List.append_assoc, List.cons_append, List.nil_append, List.map_cons,
      List.map_map]
    rw [values_symbol h.1 (hopen _)]
    exact congrArg (_ :: ·) (hlist.inParens tail)

/-! ## There and back -/

theorem parse_write_iff (s : Spelling) {φ : Formula Unit} :
    (∃ ψ, parse (φ.write s) = .ok ψ ∧ ψ.bare = φ) ↔ φ.WellFormed := by
  constructor
  · rintro ⟨ψ, hψ, rfl⟩
    exact Formula.wellFormed_bare.mpr (wellFormed_of_parse hψ)
  · intro h
    have hspells := spells_write s h [] breaks_nil
    rw [List.append_nil, values_nil, List.append_nil] at hspells
    exact parse_iff_sentence.mpr ⟨φ.tokens, hspells, sentence_tokens h⟩

/-- **Written formulas are read back.** A formula comes back from its text, in either spelling, just
when it is well-formed; and the formulas of texts do. -/
theorem write_round_trip :
    (∀ (φ : Formula Unit) (s : Spelling),
      (∃ ψ, parse (φ.write s) = .ok ψ ∧ ψ.bare = φ) ↔ φ.WellFormed) ∧
    ∀ (source : String) (φ : Formula Span), parse source = .ok φ → ∀ s : Spelling,
      ∃ ψ, parse (φ.bare.write s) = .ok ψ ∧ ψ.bare = φ.bare := by
  refine ⟨fun φ s => parse_write_iff s, ?_⟩
  intro source φ h s
  exact (parse_write_iff s).mpr (Formula.wellFormed_bare.mpr (wellFormed_of_parse h))

end GraphLogic
