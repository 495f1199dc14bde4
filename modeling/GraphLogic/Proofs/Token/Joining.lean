import GraphLogic.Proofs.Token.Blank

/-!
# Texts with blanks between them

**Theorem (`tokenize_joined`).** Of two texts with blanks between them, each is read as if it stood
alone, the second further right; and if one of them is refused, so is the whole, for the first fault
of the first of them that has one.

A blank ends every lexeme, whatever the first text leaves off with: a name, digits, an exclamation
mark or a backslash. So the lexemes of the whole are those of the two texts (`lexemes_joined`).
-/

namespace GraphLogic

open Lexeme

variable {a w b : String} {bs : List Char}

/-! ## Lexemes -/

theorem blankFirst_append (hne : bs ≠ []) (hbs : ∀ c ∈ bs, isBlank c = true) (text : List Char) :
    BlankFirst (bs ++ text) := by
  intro c hc
  rw [List.head?_append_of_ne_nil bs hne] at hc
  exact hbs c (List.mem_of_head? hc)

theorem lexemes_joined (hne : w ≠ "") (hw : ∀ c ∈ w.toList, isBlank c = true) :
    lexemes (a ++ w ++ b) =
      lexemes a ++ (lexemes b).map (·.mapPlace (Span.shiftRight (a ++ w).length)) := by
  have hblank : BlankFirst (w.toList ++ b.toList) :=
    blankFirst_append (mt String.toList_eq_nil_iff.mp hne) hw b.toList
  have hlength : a.toList.length + w.toList.length = (a ++ w).length := by
    rw [← String.length_toList, String.toList_append, List.length_append]
  rw [lexemes, String.toList_append, String.toList_append, List.append_assoc,
    scan_append 0 _ hblank, scan_blanks hw, Nat.add_assoc, hlength, scan_add]
  rfl

/-! ## Tokens -/

theorem Lexeme.ofTokens_append (ts us : List (Placed Span Token)) :
    ofTokens (ts ++ us) = ofTokens ts ++ ofTokens us := List.map_append

theorem Lexeme.ofTokens_mapPlace (f : Span → Span) (ts : List (Placed Span Token)) :
    (ofTokens ts).map (·.mapPlace f) = ofTokens (ts.map (·.mapPlace f)) := by
  rw [ofTokens, ofTokens, List.map_map, List.map_map]
  rfl

theorem append_closed (n : Nat) (ts us : List (Placed Span Token)) :
    ts ++ closed n us = closed n (ts ++ us) := (List.append_assoc ..).symm

theorem closed_shiftRight (k n : Nat) (ts : List (Placed Span Token)) :
    (closed n ts).map (·.mapPlace (Span.shiftRight k)) =
      closed (n + k) (ts.map (·.mapPlace (Span.shiftRight k))) := List.map_append

/-- **Texts with blanks between them are read one after the other.** If the first text is refused,
the whole is refused for the same fault at the same place. If only the second one is, it is refused
for the fault of the second, further right by the characters before it. If none is, the tokens of
the whole are those of the first text up to its end, and those of the second, further right. -/
theorem tokenize_joined (a b : String) (hne : w ≠ "") (hw : ∀ c ∈ w.toList, isBlank c = true) :
    (∀ f, tokenize a = .error f → tokenize (a ++ w ++ b) = .error f) ∧
    (∀ ts f, tokenize a = .ok ts → tokenize b = .error f →
      tokenize (a ++ w ++ b) = .error (f.mapPlace (Span.shiftRight (a ++ w).length))) ∧
    ∀ ts us, tokenize a = .ok ts → tokenize b = .ok us →
      tokenize (a ++ w ++ b) =
        .ok (beforeEnd ts ++ us.map (·.mapPlace (Span.shiftRight (a ++ w).length))) := by
  have hjoined := lexemes_joined (a := a) (b := b) hne hw
  refine ⟨?_, ?_, ?_⟩
  · intro f hf
    obtain ⟨ts, ls, hls⟩ := tokenize_eq_error_iff.mp hf
    rw [hls, List.append_assoc] at hjoined
    exact tokenize_eq_error_iff.mpr ⟨ts, _, hjoined⟩
  · intro ts f hts hf
    obtain ⟨ts, hls, rfl⟩ := tokenize_eq_ok_iff.mp hts
    obtain ⟨us, ls, hls'⟩ := tokenize_eq_error_iff.mp hf
    rw [hls, hls', List.map_append, ofTokens_mapPlace, ← List.append_assoc, ← ofTokens_append]
      at hjoined
    exact tokenize_eq_error_iff.mpr ⟨_, _, hjoined⟩
  · intro ts us hts hus
    obtain ⟨ts, hls, rfl⟩ := tokenize_eq_ok_iff.mp hts
    obtain ⟨us, hls', rfl⟩ := tokenize_eq_ok_iff.mp hus
    rw [hls, hls', ofTokens_mapPlace, ← ofTokens_append] at hjoined
    refine tokenize_eq_ok_iff.mpr ⟨_, hjoined, ?_⟩
    have hlength : b.toList.length + (a ++ w).length = (a ++ w ++ b).toList.length := by
      rw [String.toList_append, List.length_append, String.length_toList, String.length_toList,
        Nat.add_comm]
    rw [beforeEnd_closed (munched_of_lexemes hls), closed_shiftRight, append_closed, hlength]

/-- Without the blanks the first two texts would be read as `≠` behind a name, the next two as a
keyword, and the last two as one name. -/
theorem tokenize_joined_apart :
    let w := "\n\u3000"
    w ≠ "" ∧ (∀ c ∈ w.toList, isBlank c = true) ∧
      tokenize ("x1!" ++ w ++ "=y") = .ok [⟨⟨0, 2⟩, .var ⟨.element, "x1"⟩⟩, ⟨⟨2, 3⟩, .negation⟩,
        ⟨⟨5, 6⟩, .comparison .equal⟩, ⟨⟨6, 7⟩, .var ⟨.element, "y"⟩⟩, ⟨⟨7, 7⟩, .endOfInput⟩] ∧
      tokenize ("\\" ++ w ++ "land") = .error ⟨⟨0, 1⟩, .missingKeyword⟩ ∧
      tokenize ("x" ++ w ++ "1") = .error ⟨⟨3, 4⟩, .illegalCharacter '1'⟩ := by
  intro w
  have hne : w ≠ "" := by decide +kernel
  have hw : ∀ c ∈ w.toList, isBlank c = true := List.all_eq_true.mp (by decide +kernel)
  refine ⟨hne, hw, ?_, ?_, ?_⟩
  · obtain ⟨-, -, hjoined⟩ := tokenize_joined "x1!" "=y" hne hw
    refine (hjoined
      [⟨⟨0, 2⟩, .var ⟨.element, "x1"⟩⟩, ⟨⟨2, 3⟩, .negation⟩, ⟨⟨3, 3⟩, .endOfInput⟩]
      [⟨⟨0, 1⟩, .comparison .equal⟩, ⟨⟨1, 2⟩, .var ⟨.element, "y"⟩⟩, ⟨⟨2, 2⟩, .endOfInput⟩]
      ?_ ?_).trans ?_ <;> decide +kernel
  · obtain ⟨hrefused, -, -⟩ := tokenize_joined "\\" "land" hne hw
    exact hrefused ⟨⟨0, 1⟩, .missingKeyword⟩ (by decide +kernel)
  · obtain ⟨-, hrefused, -⟩ := tokenize_joined "x" "1" hne hw
    refine (hrefused [⟨⟨0, 1⟩, .var ⟨.element, "x"⟩⟩, ⟨⟨1, 1⟩, .endOfInput⟩]
      ⟨⟨0, 1⟩, .illegalCharacter '1'⟩ ?_ ?_).trans ?_ <;> decide +kernel

end GraphLogic
