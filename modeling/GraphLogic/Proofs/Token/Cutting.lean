import GraphLogic.Proofs.Text.Span
import GraphLogic.Proofs.Token.Munch

/-!
# Cutting runs of tokens out of a text

**Theorem (`lexemes_cut`).** The text from the first of some lexemes in a row to the last of them
has just these lexemes, each moved left by what stood before them.

A text can be cut off on the left of each of its lexemes (`Cuts.drop`) and on the right
(`Cuts.take`), so the run is cut out in two steps.
-/

namespace GraphLogic

namespace Lexeme

variable {start : Nat} {text : List Char} {l : Placed Span Lexeme}
  {ls ls' : List (Placed Span Lexeme)}

theorem Cuts.shiftLeft {k : Nat} (h : Cuts (start + k) text ls) :
    Cuts start text (ls.map (·.mapPlace (Span.shiftLeft k))) := by
  have hback : ((scan start text).map (·.mapPlace (Span.shiftRight k))).map
      (·.mapPlace (Span.shiftLeft k)) = scan start text := by
    simp [Placed.mapPlace, Span.shiftLeft_shiftRight, Function.comp_def]
  rw [← h.scan_eq, scan_add, hback]
  exact cuts_scan start text

/-- Cutting off on the left of a lexeme. -/
theorem Cuts.drop (h : Cuts start text (ls ++ l :: ls')) :
    ∃ front back, text = front ++ back ∧ l.place.start = start + front.length ∧
      Cuts l.place.start back (l :: ls') := by
  obtain ⟨place, lexeme⟩ := l
  obtain ⟨before, w, tail, htext, rfl, hl, -, -, htail⟩ := h.split
  exact ⟨before, w ++ tail, htext, rfl, .lexeme hl htail⟩

/-- Cutting off on the right of a lexeme. -/
theorem Cuts.take (h : Cuts start text (ls ++ l :: ls')) :
    ∃ front back, text = front ++ back ∧ l.place.stop = start + front.length ∧
      Cuts start front (ls ++ [l]) := by
  obtain ⟨before, w, tail, htext, hplace, -, -, hupto, -⟩ := h.split
  refine ⟨before ++ w, tail, ?_, ?_, hupto⟩
  · rw [htext, List.append_assoc]
  · rw [hplace, List.length_append, Nat.add_assoc]

end Lexeme

open Lexeme

variable {source : String} {ls : List (Placed Span Lexeme)}

/-- **Cutting out a run of lexemes.** The text from the first to the last of them has these
lexemes and no others. -/
theorem lexemes_cut (hne : ls ≠ []) (hls : ls <:+: lexemes source) :
    lexemes ((Span.hull (ls.map (·.place))).cut source) =
      ls.map (·.mapPlace (Span.shiftLeft (Span.hull (ls.map (·.place))).start)) := by
  obtain ⟨before, after, hall⟩ := hls
  obtain ⟨first, rest, hfirst⟩ := List.exists_cons_of_ne_nil hne
  obtain ⟨init, last, hlast⟩ := (List.eq_nil_or_concat' ls).resolve_left hne
  have hcuts : Cuts 0 source.toList (before ++ first :: (rest ++ after)) := by
    rw [← List.cons_append, ← hfirst, ← List.append_assoc, hall]
    exact cuts_lexemes source
  have hsplit : first :: (rest ++ after) = init ++ last :: after := by
    rw [← List.cons_append, ← hfirst, hlast, List.append_assoc]
    rfl
  obtain ⟨front, back, hsource, hstart, hcuts⟩ := hcuts.drop
  rw [hsplit] at hcuts
  obtain ⟨middle, back, rfl, hstop, hcuts⟩ := hcuts.take
  rw [← hlast] at hcuts
  have hhull : Span.hull (ls.map (·.place)) = ⟨first.place.start, last.place.stop⟩ := by
    have hhead : (ls.map (·.place)).head? = some first.place := by simp [hfirst]
    have hlast : (ls.map (·.place)).getLast? = some last.place := by simp [hlast]
    rw [Span.hull, hhead, hlast]
    rfl
  have hcut : ((Span.hull (ls.map (·.place))).cut source).toList = middle := by
    simp [hhull, Span.cut, Span.length, hsource, hstart, hstop]
  rw [lexemes, hcut, hhull]
  exact (Cuts.shiftLeft (by rwa [Nat.zero_add])).scan_eq

end GraphLogic
