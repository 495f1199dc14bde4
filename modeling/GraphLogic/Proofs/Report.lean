import GraphLogic.Report
import Mathlib.Data.List.Basic

/-!
# What a report marks

**Theorem (`Report.Layout.exists_line`).** The lines of a report hold every character that it marks.

A mark is never empty and never reaches beyond the blank behind the text, wherever the span stands
(`Mark.ofSpan_inside`). A nonempty span of the text is marked as it is (`Mark.ofSpan_of_proper`).
-/

namespace GraphLogic

variable {n : Nat} {p : Span}

/-! ## Marks -/

/-- A span that holds characters of a text of `n` characters, and only these. -/
structure Span.Proper (n : Nat) (p : Span) : Prop where
  nonempty : p.start < p.stop
  inside : p.stop ≤ n

namespace Span

theorem Proper.cover {q : Span} (hp : p.Proper n) (hq : q.Proper n) : (p.cover q).Proper n := by
  have := hp.nonempty
  have := hp.inside
  have := hq.inside
  constructor <;> simp only [Span.cover] <;> omega

theorem Proper.isEmpty (hp : p.Proper n) : p.isEmpty = false := by
  have := hp.nonempty
  simp only [Span.isEmpty, beq_eq_false_iff_ne]
  omega

end Span

namespace Mark

theorem contains_iff {m : Mark} {i : Nat} : m.contains i = true ↔ m.start ≤ i ∧ i < m.stop := by
  simp [contains]

/-- What is proper is marked as it is. -/
theorem ofSpan_of_proper (hp : p.Proper n) : ofSpan n p = ⟨p.start, p.stop⟩ := by
  have := hp.nonempty
  have := hp.inside
  unfold ofSpan
  rw [hp.isEmpty]
  simp only [Bool.false_eq_true, if_false, Mark.mk.injEq]
  omega

/-- The end of the text is marked by the blank behind it. -/
theorem ofSpan_end (n : Nat) : ofSpan n ⟨n, n⟩ = ⟨n, n + 1⟩ := by
  unfold ofSpan
  simp [Span.isEmpty]

/-- Something is marked, and nothing beyond the blank behind the text. -/
theorem ofSpan_inside (hp : p.start ≤ p.stop) :
    (ofSpan n p).start < (ofSpan n p).stop ∧ (ofSpan n p).stop ≤ n + 1 := by
  unfold ofSpan
  by_cases hempty : p.isEmpty = true
  · rw [if_pos hempty]
    exact ⟨Nat.lt_succ_self _, Nat.succ_le_succ (Nat.min_le_right ..)⟩
  · rw [if_neg hempty]
    simp only [Span.isEmpty, beq_iff_eq] at hempty
    constructor <;> simp only <;> omega

end Mark

/-! ## Lines -/

/-- A line of a text ends between the two characters. -/
def EndsLine (c d : Char) : Prop := isLineTerminator c = true ∧ ¬ (c = '\r' ∧ d = '\n')

/-- These are the lines of the text: they end where they should, and only there. -/
structure IsLines (text : List Char) (lines : List (List Char)) : Prop where
  flatten_eq : lines.flatten = text
  nonempty : [] ∉ lines
  within : ∀ line ∈ lines, line.IsChain fun c d => ¬ EndsLine c d
  apart : lines.IsChain fun line next => ∃ c ∈ line.getLast?, ∃ d ∈ next.head?, EndsLine c d

variable {c d : Char} {rest line : List Char} {lines : List (List Char)}

theorem IsLines.endLine (h : IsLines rest ((d :: line) :: lines)) (hends : EndsLine c d) :
    IsLines (c :: rest) ([c] :: (d :: line) :: lines) where
  flatten_eq := by rw [List.flatten_cons, h.flatten_eq, List.singleton_append]
  nonempty := by simpa using h.nonempty
  within := List.forall_mem_cons.mpr ⟨.singleton c, h.within⟩
  apart := h.apart.cons_cons ⟨c, rfl, d, rfl, hends⟩

theorem IsLines.goOn (h : IsLines rest ((d :: line) :: lines)) (hends : ¬ EndsLine c d) :
    IsLines (c :: rest) ((c :: d :: line) :: lines) where
  flatten_eq := by
    rw [← h.flatten_eq]
    rfl
  nonempty := by simpa using h.nonempty
  within := by
    obtain ⟨hline, hothers⟩ := List.forall_mem_cons.mp h.within
    exact List.forall_mem_cons.mpr ⟨hline.cons_cons hends, hothers⟩
  apart := by
    have hapart := h.apart
    cases lines with
    | nil => exact .singleton _
    | cons next lines =>
      rw [List.isChain_cons_cons] at hapart ⊢
      rwa [List.getLast?_cons_cons]

theorem isLines_splitLines (text : List Char) : IsLines text (splitLines text) := by
  induction text with
  | nil => exact ⟨rfl, by simp [splitLines], by simp [splitLines], by simp [splitLines]⟩
  | cons c rest ih =>
    cases hlines : splitLines rest with
    | nil =>
      rw [hlines] at ih
      rw [splitLines, hlines, ← ih.flatten_eq]
      exact ⟨rfl, by simp, by simp, by simp⟩
    | cons line lines =>
      rw [hlines] at ih
      have hne : line ≠ [] := fun hnil => ih.nonempty (hnil ▸ List.mem_cons_self)
      obtain ⟨d, line, rfl⟩ := List.exists_cons_of_ne_nil hne
      have hbreak : (isLineTerminator c && !(c == '\r' && rest.head? == some '\n')) = true ↔
          EndsLine c d := by
        simp [← ih.flatten_eq, EndsLine, imp_iff_not_or]
      rw [splitLines, hlines]
      dsimp only
      split_ifs with hends
      · exact ih.endLine (hbreak.mp hends)
      · exact ih.goOn (mt hbreak.mpr hends)

namespace SourceLine

theorem contains_iff {l : SourceLine} {i : Nat} :
    l.contains i = true ↔ l.offset ≤ i ∧ i < l.stop := by
  simp [contains]

theorem cut_of_mem_enumerate {lines : List (List Char)} {number offset : Nat} {l : SourceLine}
    (hl : l ∈ enumerate number offset lines) :
    ∃ before after, lines = before ++ l.chars :: after ∧ l.number = before.length + number ∧
      l.offset = offset + before.flatten.length := by
  induction lines generalizing number offset with
  | nil => cases hl
  | cons chars lines ih =>
    rcases List.mem_cons.mp hl with rfl | hl
    · exact ⟨[], lines, rfl, (Nat.zero_add number).symm, rfl⟩
    · obtain ⟨before, after, rfl, hnumber, hoffset⟩ := ih hl
      refine ⟨chars :: before, after, rfl, ?_, ?_⟩
      · rw [hnumber, List.length_cons]
        omega
      · rw [hoffset, List.flatten_cons, List.length_append, Nat.add_assoc]

/-- Each line stops where the next one starts, or before. -/
theorem pairwise_enumerate (number offset : Nat) (lines : List (List Char)) :
    (enumerate number offset lines).Pairwise fun l l' => l.stop ≤ l'.offset := by
  induction lines generalizing number offset with
  | nil => exact .nil
  | cons chars lines ih =>
    refine .cons ?_ (ih _ _)
    intro l hl
    obtain ⟨before, after, -, -, hoffset⟩ := cut_of_mem_enumerate hl
    rw [hoffset]
    exact Nat.le_add_right ..

/-- Of lines in order that stop behind an offset, the first one holds it if any does. -/
theorem exists_head {ls : List SourceLine} {i : Nat}
    (hls : ls.Pairwise fun l l' => l.stop ≤ l'.offset) (hi : ∃ l ∈ ls, l.contains i = true)
    (hbehind : ∀ l ∈ ls, i < l.stop) : ∃ l, ls.head? = some l ∧ l.contains i = true := by
  obtain ⟨l, hl, hcontains⟩ := hi
  cases ls with
  | nil => cases hl
  | cons first rest =>
    refine ⟨first, rfl, ?_⟩
    rcases List.mem_cons.mp hl with rfl | hl
    · exact hcontains
    · have hapart := (List.pairwise_cons.mp hls).1 l hl
      have hfirst := hbehind first List.mem_cons_self
      rw [contains_iff] at hcontains ⊢
      omega

/-- Of lines in order that start up to an offset, the last one holds it if any does. -/
theorem exists_getLast {ls : List SourceLine} {i : Nat}
    (hls : ls.Pairwise fun l l' => l.stop ≤ l'.offset) (hi : ∃ l ∈ ls, l.contains i = true)
    (hbefore : ∀ l ∈ ls, l.offset ≤ i) : ∃ l, ls.getLast? = some l ∧ l.contains i = true := by
  obtain ⟨l, hl, hcontains⟩ := hi
  rcases List.eq_nil_or_concat' ls with rfl | ⟨init, last, rfl⟩
  · cases hl
  · refine ⟨last, List.getLast?_concat, ?_⟩
    have hlast := hbefore last (List.mem_append_right _ List.mem_cons_self)
    rcases List.mem_append.mp hl with hl | hl
    · have hapart := (List.pairwise_append.mp hls).2.2 l hl last List.mem_cons_self
      rw [contains_iff] at hcontains ⊢
      omega
    · rw [← List.mem_singleton.mp hl]
      exact hcontains

/-- Numbered lines hold all offsets from the first on. -/
theorem exists_mem_enumerate {lines : List (List Char)} (number : Nat) {offset i : Nat}
    (hstart : offset ≤ i) (hstop : i < offset + lines.flatten.length) :
    ∃ l ∈ enumerate number offset lines, l.contains i = true := by
  induction lines generalizing number offset with
  | nil =>
    rw [List.flatten_nil, List.length_nil] at hstop
    omega
  | cons chars lines ih =>
    rw [List.flatten_cons, List.length_append, ← Nat.add_assoc] at hstop
    by_cases hi : i < offset + chars.length
    · refine ⟨⟨number, offset, chars⟩, List.mem_cons_self, ?_⟩
      simp [contains, stop, hstart, hi]
    · obtain ⟨l, hl, hcontains⟩ := ih (number + 1) (Nat.le_of_not_lt hi) hstop
      exact ⟨l, List.mem_cons_of_mem _ hl, hcontains⟩

end SourceLine

/-- **The lines of a report** hold every character that it marks. -/
theorem Report.Layout.exists_line {source : List Char} {d : Diagnostic} {i : Nat}
    (hd : d.span.start ≤ d.span.stop) (hi : (ofDiagnostic source d).mark.contains i = true) :
    ∃ l ∈ (ofDiagnostic source d).lines, l.contains i = true := by
  have hlength : (splitLines (source ++ [' '])).flatten.length = source.length + 1 := by
    rw [(isLines_splitLines _).flatten_eq, List.length_append, List.length_singleton]
  have hmark := Mark.contains_iff.mp hi
  have hinside : i < source.length + 1 := Nat.lt_of_lt_of_le hmark.2 (Mark.ofSpan_inside hd).2
  obtain ⟨l, hl, hcontains⟩ := SourceLine.exists_mem_enumerate 1 (Nat.zero_le i)
    (by rwa [Nat.zero_add, hlength])
  have hline := SourceLine.contains_iff.mp hcontains
  refine ⟨l, List.mem_filter.mpr ⟨hl, ?_⟩, hcontains⟩
  rw [Bool.and_eq_true, decide_eq_true_iff, decide_eq_true_iff]
  exact ⟨Nat.lt_of_le_of_lt hline.1 hmark.2, Nat.lt_of_le_of_lt hmark.1 hline.2⟩

namespace Report.Layout

variable {source : List Char} {d : Diagnostic} {l : SourceLine}

theorem cut_of_mem_lines (hl : l ∈ (ofDiagnostic source d).lines) :
    ∃ before after, splitLines (source ++ [' ']) = before ++ l.chars :: after ∧
      l.number = before.length + 1 ∧ l.offset = before.flatten.length := by
  obtain ⟨before, after, hlines, hnumber, hoffset⟩ :=
    SourceLine.cut_of_mem_enumerate (List.mem_of_mem_filter hl)
  exact ⟨before, after, hlines, hnumber, hoffset.trans (Nat.zero_add _)⟩

/-- Lines of a report hold marked characters. -/
theorem touches_of_mem_lines (hl : l ∈ (ofDiagnostic source d).lines) :
    l.offset < (ofDiagnostic source d).mark.stop ∧
      (ofDiagnostic source d).mark.start < l.stop := by
  have htouches := (List.mem_filter.mp hl).2
  rwa [Bool.and_eq_true, decide_eq_true_iff, decide_eq_true_iff] at htouches

theorem pairwise_lines (source : List Char) (d : Diagnostic) :
    (ofDiagnostic source d).lines.Pairwise fun l l' => l.stop ≤ l'.offset :=
  (SourceLine.pairwise_enumerate ..).sublist List.filter_sublist

/-- The mark starts in the first of the lines. -/
theorem exists_first_line (hd : d.span.start ≤ d.span.stop) :
    ∃ l, (ofDiagnostic source d).lines.head? = some l ∧
      l.contains (ofDiagnostic source d).mark.start = true := by
  have hmark : (ofDiagnostic source d).mark.start < (ofDiagnostic source d).mark.stop :=
    (Mark.ofSpan_inside hd).1
  refine SourceLine.exists_head (pairwise_lines source d) ?_ fun l hl => ?_
  · exact exists_line hd (Mark.contains_iff.mpr ⟨Nat.le_refl _, hmark⟩)
  · exact (touches_of_mem_lines hl).2

/-- It stops in the last of them. -/
theorem exists_last_line (hd : d.span.start ≤ d.span.stop) :
    ∃ l, (ofDiagnostic source d).lines.getLast? = some l ∧
      l.contains (ofDiagnostic source d).mark.last = true := by
  have hmark : (ofDiagnostic source d).mark.start < (ofDiagnostic source d).mark.stop :=
    (Mark.ofSpan_inside hd).1
  refine SourceLine.exists_getLast (pairwise_lines source d) ?_ fun l hl => ?_
  · refine exists_line hd (Mark.contains_iff.mpr ⟨?_, ?_⟩)
    · exact Nat.le_sub_one_of_lt hmark
    · exact Nat.sub_one_lt_of_lt hmark
  · exact Nat.le_sub_one_of_lt (touches_of_mem_lines hl).1

end Report.Layout

end GraphLogic
