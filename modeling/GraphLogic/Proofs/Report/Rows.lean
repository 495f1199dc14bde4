import GraphLogic.Proofs.Report
import GraphLogic.Proofs.Token.Blank
import Mathlib.Algebra.GroupWithZero.Nat
import Mathlib.Data.List.Forall2

/-!
# The rows of a report

**Theorem (`Report.Layout.points_ofDiagnostic`).** The rows of a report point at just the characters
that it marks. Where they stand in one line, the row of the line shows them in the ink of the mark
and no others, and the row below has a stroke under them and blanks under all others. Where they
stand in several lines, the first of these is shown, and the last one behind it, again with just the
marked characters in the ink of the mark.

A row is put together from cells, so it is compared with its line in groups of cells, one for each
position of the line behind a margin. In rows that stand one below the other, groups of one position
have the same width.
-/

namespace GraphLogic

/-! ## Inks -/

theorem Ink.parameters?_injective : Function.Injective Ink.parameters? := by
  intro a b h
  rcases a with _ | _ | _ | _ | ⟨_ | _⟩ <;> rcases b with _ | _ | _ | _ | ⟨_ | _⟩ <;>
    simp_all [Ink.parameters?]

/-- Cells with the same text look different in different inks. -/
theorem Inked.ink_eq_of_render {x y : Inked} (htext : x.text = y.text)
    (h : x.render true = y.render true) : x.ink = y.ink := by
  refine Ink.parameters?_injective ?_
  unfold render at h
  rw [htext] at h
  have hlength := congrArg (·.toList.length) h
  cases hx : x.ink.parameters? with
  | none =>
    cases hy : y.ink.parameters? with
    | none => rfl
    | some q =>
      simp [hx, hy] at hlength
      omega
  | some p =>
    cases hy : y.ink.parameters? with
    | none =>
      simp [hx, hy] at hlength
      omega
    | some q => simpa [hx, hy] using h

/-- What a stroke is drawn with. -/
def strokeSigns : List Char := [' ', '─', '┬']

/-- Digits and what a stroke is drawn with. -/
def narrow : CharSet where
  intervals := digits.intervals ++ (CharSet.ofList strokeSigns).intervals

theorem charWidth_of_narrow {c : Char} (hc : narrow.contains c = true) : charWidth c = 1 := by
  have hzero : zeroWidth.contains c = false := CharSet.contains_eq_false (by decide +kernel) hc
  have hdouble : doubleWidth.contains c = false := CharSet.contains_eq_false (by decide +kernel) hc
  simp [charWidth, hzero, hdouble]

theorem charWidth_of_digit {c : Char} (hc : c.isDigit = true) : charWidth c = 1 := by
  rw [← contains_digits, CharSet.contains_iff] at hc
  obtain ⟨i, hi, hinside⟩ := hc
  exact charWidth_of_narrow (CharSet.contains_iff.mpr ⟨i, List.mem_append_left _ hi, hinside⟩)

theorem charWidth_of_mem {c : Char} (hc : c ∈ strokeSigns) : charWidth c = 1 := by
  obtain ⟨i, hi, hinside⟩ := CharSet.contains_iff.mp (CharSet.contains_ofList hc)
  exact charWidth_of_narrow (CharSet.contains_iff.mpr ⟨i, List.mem_append_right _ hi, hinside⟩)

theorem SourceLine.width_pos {c : Char} (hc : isBlank c = true) (i : Nat) : 0 < width c i := by
  unfold width
  split_ifs
  · omega
  · exact Nat.one_pos

namespace Report

/-! ## Cells -/

/-- The characters of a row. -/
def written (row : Row) : List Char := row.flatMap fun x => x.text.toList

/-- The number of columns that a row takes. -/
def columns (row : Row) : Nat := ((written row).map charWidth).sum

/-- The cells show the character, or a blank as spaces. -/
def Depicts (c : Char) (cells : Row) : Prop :=
  if isBlank c then written cells ≠ [] ∧ ∀ s ∈ written cells, s = ' ' else written cells = [c]

variable {r : Layout} {l : SourceLine} {c : Char} {row : Row} {ink : Ink} {text tail : String}
  {i n : Nat}

theorem written_append (row row' : Row) : written (row ++ row') = written row ++ written row' :=
  List.flatMap_append

theorem columns_cons (x : Inked) (row : Row) :
    columns (x :: row) = columns [x] + columns row := by
  simp [columns, written]

theorem written_replicate (n : Nat) (ink : Ink) :
    written (List.replicate n ⟨ink, " "⟩) = List.replicate n ' ' := by
  simp [written, List.flatMap_replicate]

theorem columns_char (ink : Ink) (c : Char) : columns [⟨ink, c.toString⟩] = charWidth c := by
  simp [columns, written]

theorem columns_space (ink : Ink) : columns [⟨ink, " "⟩] = 1 :=
  (columns_char ink ' ').trans (charWidth_of_mem (by simp [strokeSigns]))

/-- The parts of a stroke. -/
def IsStroke (s : String) : Prop := s = "─" ∨ s = "┬"

theorem columns_stroke (ink : Ink) (htext : IsStroke text) : columns [⟨ink, text⟩] = 1 := by
  rcases htext with rfl | rfl
  · exact (columns_char ink '─').trans (charWidth_of_mem (by simp [strokeSigns]))
  · exact (columns_char ink '┬').trans (charWidth_of_mem (by simp [strokeSigns]))

theorem sum_charWidth_number (n : Nat) :
    ((toString n).toList.map charWidth).sum = (toString n).length := by
  have hdigit : ∀ c ∈ (toString n).toList, charWidth c = 1 := by
    intro c hc
    rw [Nat.toString_eq_repr, Nat.toList_repr] at hc
    exact charWidth_of_digit (Nat.isDigit_of_mem_toDigits (by decide) (by decide) hc)
  rw [List.map_congr_left hdigit, List.map_const', List.sum_replicate_nat, Nat.mul_one,
    String.length_toList]

theorem columns_replicate (n : Nat) {x : Inked} (hx : columns [x] = 1) :
    columns (List.replicate n x) = n := by
  induction n with
  | zero => rfl
  | succ n ih => rw [List.replicate_succ, columns_cons, hx, ih, Nat.add_comm]

theorem toList_times (n : Nat) : (times n " ").toList = List.replicate n ' ' := by
  simp [times, List.flatMap_replicate]

theorem mem_cell {x : Inked} (hx : x ∈ cell ink text tail n) :
    x.ink = ink ∧ (x.text = text ∨ x.text = tail) := by
  cases n with
  | zero => cases hx
  | succ n =>
    rcases List.mem_cons.mp hx with rfl | hx
    · exact ⟨rfl, Or.inl rfl⟩
    · rw [List.eq_of_mem_replicate hx]
      exact ⟨rfl, Or.inr rfl⟩

theorem columns_cell (htext : columns [⟨ink, text⟩] = 1) (htail : columns [⟨ink, tail⟩] = 1) :
    columns (cell ink text tail n) = n := by
  cases n with
  | zero => rfl
  | succ n => rw [cell, columns_cons, htext, columns_replicate n htail, Nat.add_comm]

theorem toList_report (source : String) (ds : List Diagnostic) (color : Bool) :
    (report source ds color).toList = ds.flatMap fun d =>
      (Layout.ofDiagnostic source.toList d).rows.flatMap fun row =>
        (row.flatMap fun x => (x.render color).toList) ++ ['\n'] := by
  simp [report, renderRow, String.toList_join, List.flatMap_assoc, List.flatMap_map]

end Report

namespace SourceLine

/-- The number of columns of a position; behind the characters that are shown, it is one. -/
def widthAt (l : SourceLine) (i : Nat) : Nat := l.shown[i]?.elim 1 fun c => width c i

theorem getElem?_widths {l : SourceLine} {n i : Nat} (hi : i < n) :
    (l.widths n)[i]? = some (l.widthAt i) := by
  unfold widths widthAt
  rw [List.getElem?_take_of_lt hi, List.getElem?_append]
  split_ifs with hlt
  · rw [List.length_map, List.length_zipIdx] at hlt
    simp [hlt]
  · rw [List.length_map, List.length_zipIdx] at hlt ⊢
    rw [List.getElem?_replicate_of_lt (by omega), List.getElem?_eq_none (Nat.le_of_not_lt hlt)]
    rfl

theorem length_widths (l : SourceLine) (n : Nat) : (l.widths n).length = n := by
  simp [widths]

end SourceLine

namespace Report.Layout

variable {r : Layout} {l : SourceLine} {c : Char} {i n : Nat}

/-! ## Groups of cells -/

/-- The ink of a character at a position of a line. -/
def inkAt (r : Layout) (l : SourceLine) (i : Nat) : Ink :=
  if r.mark.contains (l.offset + i) then r.ink else .source

theorem inkAt_eq_ink_iff : r.inkAt l i = r.ink ↔ r.mark.contains (l.offset + i) = true := by
  unfold inkAt ink
  split_ifs with hi
  · exact iff_of_true rfl hi
  · exact iff_of_false (by simp) hi

/-- The cells for a character at a position of a line. -/
def charCells (r : Layout) (l : SourceLine) (c : Char) (i : Nat) : Row :=
  if isBlank c then List.replicate (SourceLine.width c i) ⟨r.inkAt l i, " "⟩
  else [⟨r.inkAt l i, c.toString⟩]

def textGroups (r : Layout) (l : SourceLine) : List Row :=
  l.shown.zipIdx.map fun p => r.charCells l p.1 p.2

theorem text_eq (r : Layout) (l : SourceLine) : r.text l = (r.textGroups l).flatten :=
  List.flatMap_def

theorem getElem?_textGroups :
    (r.textGroups l)[i]? = l.shown[i]?.map fun c => r.charCells l c i := by
  simp [textGroups, Function.comp_def]

theorem depicts_charCells : Depicts c (r.charCells l c i) := by
  by_cases hc : isBlank c = true
  · rw [Depicts, charCells, if_pos hc, if_pos hc, written_replicate]
    refine ⟨?_, fun s hs => List.eq_of_mem_replicate hs⟩
    simpa using (SourceLine.width_pos hc i).ne'
  · simp [Depicts, charCells, hc, written]

theorem ink_of_mem_charCells {x : Inked} (hx : x ∈ r.charCells l c i) : x.ink = r.inkAt l i := by
  unfold charCells at hx
  split_ifs at hx
  · rw [List.eq_of_mem_replicate hx]
  · rw [List.mem_singleton.mp hx]

theorem columns_charCells : columns (r.charCells l c i) = SourceLine.width c i := by
  by_cases hc : isBlank c = true
  · rw [charCells, if_pos hc, columns_replicate _ (columns_space _)]
  · have htab : c ≠ '\t' := by
      rintro rfl
      exact hc (by decide)
    simp [charCells, hc, columns, written, SourceLine.width, htab]

/-- What stands below a position of a line: a part of the stroke, or a space. -/
def strokeAt (r : Layout) (l : SourceLine) (i : Nat) : Ink × String × String :=
  if i = (r.mark.start + r.mark.stop) / 2 - l.offset then (r.ink, "┬", "─")
  else if r.mark.contains (l.offset + i) then (r.ink, "─", "─")
  else (.plain, " ", " ")

theorem strokeAt_of_marked (hi : r.mark.contains (l.offset + i) = true) :
    (r.strokeAt l i).1 = r.ink ∧ IsStroke (r.strokeAt l i).2.1 ∧ IsStroke (r.strokeAt l i).2.2 := by
  unfold strokeAt
  split_ifs
  · exact ⟨rfl, Or.inr rfl, Or.inl rfl⟩
  · exact ⟨rfl, Or.inl rfl, Or.inl rfl⟩

/-- The middle of the mark is marked, so that nothing stands below other positions. -/
theorem strokeAt_of_not_marked (hstart : l.offset ≤ r.mark.start)
    (hmark : r.mark.start < r.mark.stop) (hi : ¬ r.mark.contains (l.offset + i) = true) :
    r.strokeAt l i = (.plain, " ", " ") := by
  have hmiddle : i ≠ (r.mark.start + r.mark.stop) / 2 - l.offset := by
    rintro rfl
    rw [Mark.contains_iff] at hi
    omega
  rw [strokeAt, if_neg hmiddle, if_neg hi]

/-- The cells below a position of a line. -/
def strokeCells (r : Layout) (l : SourceLine) (width i : Nat) : Row :=
  cell (r.strokeAt l i).1 (r.strokeAt l i).2.1 (r.strokeAt l i).2.2 width

def strokeGroups (r : Layout) (l : SourceLine) (limit : Nat) : List Row :=
  (l.widths limit).zipIdx.map fun p => r.strokeCells l p.1 p.2

theorem cells_eq (r : Layout) (l : SourceLine) (limit : Nat) :
    cells l limit (r.strokeAt l) = (r.strokeGroups l limit).flatten := List.flatMap_def

theorem getElem?_strokeGroups {limit : Nat} {cells : Row}
    (h : (r.strokeGroups l limit)[i]? = some cells) : cells = r.strokeCells l (l.widthAt i) i := by
  have hlt : i < limit := by
    have hlength := (List.getElem?_eq_some_iff.mp h).1
    simpa [strokeGroups, SourceLine.length_widths] using hlength
  simpa [strokeGroups, SourceLine.getElem?_widths hlt] using h.symm

theorem columns_strokeCells (hstart : l.offset ≤ r.mark.start)
    (hmark : r.mark.start < r.mark.stop) (width : Nat) :
    columns (r.strokeCells l width i) = width := by
  by_cases hi : r.mark.contains (l.offset + i) = true
  · obtain ⟨-, hhead, htail⟩ := strokeAt_of_marked hi
    exact columns_cell (columns_stroke _ hhead) (columns_stroke _ htail)
  · rw [strokeCells, strokeAt_of_not_marked hstart hmark hi]
    exact columns_cell (columns_space _) (columns_space _)

/-! ## Rows that point -/

/-- Behind a margin with its number and an arrow, the row shows the line, one group of cells for
each of its characters; and just the cells of the marked ones are in the ink of the mark. -/
structure Shows (r : Layout) (l : SourceLine) (arrow : String) (row margin : Row)
    (groups : List Row) : Prop where
  row_eq : row = margin ++ groups.flatten
  margin_eq : ∃ n, written margin =
    List.replicate n ' ' ++ (toString l.number ++ " │ " ++ arrow).toList
  depicts : List.Forall₂ Depicts l.shown groups
  inked : ∀ (i : Nat) (cells : Row), groups[i]? = some cells →
    ∀ x ∈ cells, x.ink = r.ink ↔ r.mark.contains (l.offset + i) = true

/-- Behind a margin, the row has a stroke in the ink of the mark below what is marked in the line,
and else spaces. -/
structure Underlines (r : Layout) (l : SourceLine) (row margin : Row) (groups : List Row) :
    Prop where
  row_eq : row = margin ++ groups.flatten
  reaches : ∀ i, r.mark.contains (l.offset + i) = true → i < groups.length
  stroke : ∀ (i : Nat) (cells : Row), groups[i]? = some cells → ∀ x ∈ cells,
    if r.mark.contains (l.offset + i) then x.ink = r.ink ∧ IsStroke x.text else x = plain " "
  /-- Behind the characters that are shown, each position has one column. -/
  behind : ∀ (i : Nat) (cells : Row), groups[i]? = some cells → l.shown.length ≤ i →
    columns cells = 1

/-- The one row shows the line, and the other one underlines just what is marked in it. -/
def Underlined (r : Layout) (l : SourceLine) (text stroke : Row) : Prop :=
  ∃ margin groups margin' groups', r.Shows l "" text margin groups ∧
    r.Underlines l stroke margin' groups' ∧ columns margin = columns margin' ∧
    ∀ (i : Nat) (cells cells' : Row), groups[i]? = some cells → groups'[i]? = some cells' →
      columns cells = columns cells'

theorem forall₂_depicts (r : Layout) (l : SourceLine) :
    List.Forall₂ Depicts l.shown (r.textGroups l) := by
  have hzip (cs : List Char) (k : Nat) :
      List.Forall₂ (fun c (p : Char × Nat) => Depicts c (r.charCells l p.1 p.2)) cs
        (cs.zipIdx k) := by
    induction cs generalizing k with
    | nil => exact .nil
    | cons c cs ih => exact .cons depicts_charCells (ih (k + 1))
  exact List.forall₂_map_right_iff.mpr (hzip l.shown 0)

theorem shows_text {arrow : String} {margin : Row} (hmargin : ∃ n, written margin =
    List.replicate n ' ' ++ (toString l.number ++ " │ " ++ arrow).toList) :
    r.Shows l arrow (margin ++ r.text l) margin (r.textGroups l) where
  row_eq := by rw [text_eq]
  margin_eq := hmargin
  depicts := forall₂_depicts r l
  inked := by
    intro i cells hcells x hx
    rw [getElem?_textGroups, Option.map_eq_some_iff] at hcells
    obtain ⟨c, -, rfl⟩ := hcells
    rw [ink_of_mem_charCells hx, inkAt_eq_ink_iff]

theorem underlines_strokeGroups {margin : Row} {limit : Nat} (hstart : l.offset ≤ r.mark.start)
    (hmark : r.mark.start < r.mark.stop) (hlimit : r.mark.stop ≤ l.offset + limit) :
    r.Underlines l (margin ++ cells l limit (r.strokeAt l)) margin (r.strokeGroups l limit) where
  row_eq := by rw [cells_eq]
  reaches := by
    intro i hi
    rw [Mark.contains_iff] at hi
    rw [strokeGroups, List.length_map, List.length_zipIdx, SourceLine.length_widths]
    omega
  stroke := by
    intro i cells hcells x hx
    rw [getElem?_strokeGroups hcells] at hx
    obtain ⟨hink, htext⟩ := mem_cell hx
    split_ifs with hi
    · obtain ⟨hf, hhead, htail⟩ := strokeAt_of_marked hi
      refine ⟨hink.trans hf, ?_⟩
      rcases htext with htext | htext <;> rw [htext] <;> assumption
    · rw [strokeAt_of_not_marked hstart hmark hi] at hink htext
      exact congrArg₂ Inked.mk hink ((or_self_iff).mp htext)
  behind := by
    intro i cells hcells hi
    rw [getElem?_strokeGroups hcells, columns_strokeCells hstart hmark, SourceLine.widthAt,
      List.getElem?_eq_none hi]
    rfl

/-! ## Margins -/

theorem written_numberMargin (r : Layout) (n : Nat) : written (r.numberMargin n) =
    List.replicate (1 + (r.numberWidth - (toString n).length)) ' ' ++
      (toString n ++ " │ ").toList := by
  simp [numberMargin, written, plain, toList_times, List.replicate_add]

theorem written_blankMargin (r : Layout) (bar : String) : written (r.blankMargin bar) =
    List.replicate (r.numberWidth + 2) ' ' ++ bar.toList ++ [' '] := by
  simp [blankMargin, written, plain, toList_times, List.replicate_succ]

/-- Margins have one width. -/
theorem columns_numberMargin {n : Nat} (hn : (toString n).length ≤ r.numberWidth) :
    columns (r.numberMargin n) = columns (r.blankMargin "│") := by
  have hspace : charWidth ' ' = 1 := charWidth_of_mem (by simp [strokeSigns])
  simp only [columns, written_numberMargin, written_blankMargin, String.toList_append,
    List.map_append, List.sum_append, sum_charWidth_number]
  rw [Nat.toString_eq_repr] at hn ⊢
  simp [hspace]
  omega

/-! ## The rows of the lines -/

variable {first last : SourceLine}

theorem exists_rows (r : Layout) : ∃ above foot, r.rows = above ++ (r.lineRows ++ [foot]) ∧
    ∃ row ∈ above, plain ("<unknown>:" ++ r.position) ∈ row := by
  refine ⟨_, _, List.append_assoc .., _, List.mem_cons_of_mem _ List.mem_cons_self, ?_⟩
  simp

theorem exists_place (hfirst : r.lines.head? = some first) : ∃ row ∈ r.rows,
    plain ("<unknown>:" ++ toString first.number ++ ":" ++
      toString (r.mark.start - first.offset + 1)) ∈ row := by
  obtain ⟨rest, hlines⟩ := List.head?_eq_some_iff.mp hfirst
  obtain ⟨above, foot, hrows, row, hrow, hplace⟩ := r.exists_rows
  rw [position, hlines] at hplace
  refine ⟨row, ?_, ?_⟩
  · rw [hrows]
    exact List.mem_append_left _ hrow
  · simpa only [String.append_assoc] using hplace

theorem underlined_inline (hlines : r.lines = [l]) (hstart : l.offset ≤ r.mark.start)
    (hmark : r.mark.start < r.mark.stop) :
    ∃ above text stroke arrow foot, r.rows = above ++ [text, stroke, arrow, foot] ∧
      r.Underlined l text stroke ∧
      arrow.getLast? = some (plain (" " ++ r.diagnostic.message)) := by
  obtain ⟨above, foot, hrows, -⟩ := r.exists_rows
  have hlineRows : r.lineRows = r.inlineRows l := by rw [lineRows, hlines]
  rw [hlineRows] at hrows
  have hwidth : (toString l.number).length ≤ r.numberWidth := by
    rw [numberWidth, hlines]
    exact Nat.le_refl _
  have hunder : r.Underlines l
      (r.blankMargin "│" ++ cells l (r.mark.stop - l.offset + 2) (r.strokeAt l))
      (r.blankMargin "│") (r.strokeGroups l (r.mark.stop - l.offset + 2)) :=
    underlines_strokeGroups hstart hmark (by omega)
  have hshows : r.Shows l "" (r.numberMargin l.number ++ r.text l) (r.numberMargin l.number)
      (r.textGroups l) := by
    refine shows_text ⟨1 + (r.numberWidth - (toString l.number).length), ?_⟩
    rw [written_numberMargin, String.append_empty]
  refine ⟨above, _, _, _, foot, hrows,
    ⟨_, _, _, _, hshows, hunder, columns_numberMargin hwidth, ?_⟩, List.getLast?_concat⟩
  intro i cells cells' hcells hcells'
  rw [getElem?_textGroups, Option.map_eq_some_iff] at hcells
  obtain ⟨c, hc, rfl⟩ := hcells
  rw [getElem?_strokeGroups hcells', columns_strokeCells hstart hmark, columns_charCells,
    SourceLine.widthAt, hc]
  rfl

theorem written_strokes (r : Layout) (texts : List String) :
    written (r.strokes texts) = (String.join texts).toList := by
  simp [strokes, written, List.flatMap_map, String.toList_join]

/-- The line with an arrow in front of it. -/
theorem shows_strokes (r : Layout) (l : SourceLine) (texts : List String) :
    r.Shows l (String.join texts) (r.numberMargin l.number ++ r.strokes texts ++ r.text l)
      (r.numberMargin l.number ++ r.strokes texts) (r.textGroups l) := by
  refine shows_text ⟨1 + (r.numberWidth - (toString l.number).length), ?_⟩
  rw [written_append, written_numberMargin, written_strokes]
  simp only [String.toList_append, List.append_assoc]

theorem shown_multiline {between : List SourceLine}
    (hlines : r.lines = first :: (between ++ [last])) :
    ∃ above row gap row' leading arrow foot margin groups margin' groups',
      r.rows = above ++ row :: (gap ++ [row', leading, arrow, foot]) ∧
      r.Shows first "╭─▶ " row margin groups ∧ r.Shows last "├─▶ " row' margin' groups' ∧
      arrow.getLast? = some (plain (" " ++ r.diagnostic.message)) := by
  obtain ⟨above, foot, hrows, -⟩ := r.exists_rows
  have hlineRows : ∃ gap, r.lineRows = r.firstRow first :: (gap ++ r.lastRows last) := by
    unfold lineRows
    rw [hlines]
    cases between with
    | nil => exact ⟨[], rfl⟩
    | cons second between =>
      have hlast : (second :: (between ++ [last])).getLast? = some last := by
        rw [← List.cons_append, List.getLast?_concat]
      refine ⟨[r.gapRow], ?_⟩
      simp [hlast]
  obtain ⟨gap, hlineRows⟩ := hlineRows
  rw [hlineRows, List.cons_append, List.append_assoc] at hrows
  exact ⟨above, _, gap, _, _, _, foot, _, _, _, _, hrows,
    shows_strokes r first ["╭", "─", "▶", " "], shows_strokes r last ["├", "─", "▶", " "],
    List.getLast?_concat⟩

/-! ## Whole reports -/

/-- The rows point at what is marked in the text. -/
structure Points (r : Layout) (text : List Char) : Prop where
  split : IsLines text (splitLines text)
  /-- The lines stand in the text where their numbers and offsets say, and all of their characters
  are shown but the blanks at their ends. -/
  cut : ∀ l ∈ r.lines, (∃ before after, splitLines text = before ++ l.chars :: after ∧
      l.number = before.length + 1 ∧ l.offset = before.flatten.length) ∧
    ∃ blanks, (∀ c ∈ blanks, isBlank c = true) ∧ l.shown ++ blanks = l.chars
  /-- The mark starts in the first line, at the place of the report. -/
  starts : ∃ l, r.lines.head? = some l ∧ l.contains r.mark.start = true ∧ ∃ row ∈ r.rows,
    plain ("<unknown>:" ++ toString l.number ++ ":" ++ toString (r.mark.start - l.offset + 1)) ∈
      row
  /-- It stops in the last line. -/
  stops : ∃ l, r.lines.getLast? = some l ∧ l.contains r.mark.last = true
  inline : ∀ l, r.lines = [l] → ∃ above text stroke below,
    r.rows = above ++ text :: stroke :: below ∧ r.Underlined l text stroke
  multiline : ∀ first between last, r.lines = first :: (between ++ [last]) →
    ∃ above row gap row' below margin groups margin' groups',
      r.rows = above ++ row :: (gap ++ row' :: below) ∧
      r.Shows first "╭─▶ " row margin groups ∧ r.Shows last "├─▶ " row' margin' groups'
  /-- The message stands behind an arrow in the last row but one. -/
  labelled : ∃ above row foot, r.rows = above ++ [row, foot] ∧
    row.getLast? = some (plain (" " ++ r.diagnostic.message))

theorem lines_cases (hfirst : r.lines.head? = some first) :
    r.lines = [first] ∨ ∃ between last, r.lines = first :: (between ++ [last]) := by
  obtain ⟨rest, hrest⟩ := List.head?_eq_some_iff.mp hfirst
  rcases List.eq_nil_or_concat' rest with rfl | ⟨between, last, rfl⟩
  · exact Or.inl hrest
  · exact Or.inr ⟨between, last, hrest⟩

/-- **Reports point at what they mark.** -/
theorem points_ofDiagnostic {source : List Char} {d : Diagnostic}
    (hd : d.span.start ≤ d.span.stop) : (ofDiagnostic source d).Points (source ++ [' ']) := by
  have hmark : (ofDiagnostic source d).mark.start < (ofDiagnostic source d).mark.stop :=
    (Mark.ofSpan_inside hd).1
  obtain ⟨first, hfirst, hstart⟩ := exists_first_line hd
  obtain ⟨last, hlast, hstop⟩ := exists_last_line hd
  generalize hr : ofDiagnostic source d = r at *
  have hoffset : first.offset ≤ r.mark.start := (SourceLine.contains_iff.mp hstart).1
  constructor
  · exact isLines_splitLines _
  · intro l hl
    subst hr
    exact ⟨cut_of_mem_lines hl, exists_trimEnd l.chars⟩
  · exact ⟨first, hfirst, hstart, exists_place hfirst⟩
  · exact ⟨last, hlast, hstop⟩
  · intro l hlines
    rw [hlines] at hfirst
    obtain rfl := Option.some_inj.mp hfirst
    obtain ⟨above, text, stroke, arrow, foot, hrows, hunder, -⟩ :=
      underlined_inline hlines hoffset hmark
    exact ⟨above, text, stroke, [arrow, foot], hrows, hunder⟩
  · intro first between last hlines
    obtain ⟨above, row, gap, row', leading, arrow, foot, margin, groups, margin', groups', hrows,
      hshows, hshows', -⟩ := shown_multiline hlines
    exact ⟨above, row, gap, row', [leading, arrow, foot], margin, groups, margin', groups', hrows,
      hshows, hshows'⟩
  · rcases lines_cases hfirst with hlines | ⟨between, last, hlines⟩
    · obtain ⟨above, text, stroke, arrow, foot, hrows, -, hmessage⟩ :=
        underlined_inline hlines hoffset hmark
      refine ⟨above ++ [text, stroke], arrow, foot, ?_, hmessage⟩
      rw [hrows, List.append_assoc]
      rfl
    · obtain ⟨above, row, gap, row', leading, arrow, foot, -, -, -, -, hrows, -, -, hmessage⟩ :=
        shown_multiline hlines
      refine ⟨above ++ row :: (gap ++ [row', leading]), arrow, foot, ?_, hmessage⟩
      rw [hrows]
      simp

end Report.Layout

end GraphLogic
