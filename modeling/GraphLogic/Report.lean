import GraphLogic.Report.Ink
import GraphLogic.Report.SourceLine

/-!
# Reports

A report shows a diagnostic with the source lines that it speaks of: a header, the place, the
lines with an arrow from the marked characters to the message, and a footer. One report stands
for one diagnostic.
-/

namespace GraphLogic

/-- The characters that a report marks; the ones between `start` and `stop`, and at least one. -/
structure Mark where
  start : Nat
  stop : Nat
  deriving DecidableEq, Repr

namespace Mark

/-- The mark for a span of a text with `length` characters. A blank behind the text stands for its
end, and what lies beyond is marked there. -/
def ofSpan (length : Nat) (s : Span) : Mark :=
  let start := min s.start length
  if s.isEmpty then ⟨start, start + 1⟩ else ⟨start, min s.stop (length + 1)⟩

def contains (m : Mark) (offset : Nat) : Bool := m.start ≤ offset && offset < m.stop

/-- The offset of the last marked character. -/
def last (m : Mark) : Nat := m.stop - 1

end Mark

namespace Report

abbrev Row := List Inked

def plain (text : String) : Inked := ⟨.plain, text⟩

def times (n : Nat) (text : String) : String := String.join (List.replicate n text)

/-- A cell that is repeated over several columns: `text` in the first and `tail` in the others. -/
def cell (ink : Ink) (text tail : String) (width : Nat) : Row :=
  match width with
  | 0 => []
  | width + 1 => ⟨ink, text⟩ :: List.replicate width ⟨ink, tail⟩

/-- What the rows of one report have in common. -/
structure Layout where
  diagnostic : Diagnostic
  mark : Mark
  /-- The lines with marked characters. -/
  lines : List SourceLine
  deriving Repr

namespace Layout

def ofDiagnostic (source : List Char) (d : Diagnostic) : Layout :=
  let mark := Mark.ofSpan source.length d.span
  -- The blank behind the text gives its end a column.
  let lines := SourceLine.ofText (source ++ [' '])
  ⟨d, mark, lines.filter fun l => l.offset < mark.stop && mark.start < l.stop⟩

/-- The ink of what belongs to the mark. -/
def ink (r : Layout) : Ink := .severity r.diagnostic.severity

/-- The number of digits of the largest line number. -/
def numberWidth (r : Layout) : Nat :=
  (toString ((r.lines.getLast?.map (·.number)).getD 1)).length

/-! ## Parts of rows -/

/-- The margin of a row with the line numbered `n`. -/
def numberMargin (r : Layout) (n : Nat) : Row :=
  let number := toString n
  [plain " ", ⟨.frame, times (r.numberWidth - number.length) " " ++ number ++ " │"⟩, plain " "]

/-- The margin of a row without a line; `bar` separates it from the rest. -/
def blankMargin (r : Layout) (bar : String) : Row :=
  [plain " ", ⟨.margin, times (r.numberWidth + 1) " " ++ bar⟩, plain " "]

/-- The characters of a line. -/
def text (r : Layout) (l : SourceLine) : Row :=
  l.shown.zipIdx.flatMap fun (c, i) =>
    let ink := if r.mark.contains (l.offset + i) then r.ink else .source
    if isBlank c then List.replicate (SourceLine.width c i) ⟨ink, " "⟩
    else [⟨ink, c.toString⟩]

/-- Cells for the positions up to `limit` of a line, each as wide as its character. -/
def cells (l : SourceLine) (limit : Nat) (f : Nat → Ink × String × String) : Row :=
  (l.widths limit).zipIdx.flatMap fun (width, i) =>
    let (ink, text, tail) := f i
    cell ink text tail width

/-! ## Marks inside one line -/

/-- The rows of a line that holds the whole mark: the line, the underline, and the message. -/
def inlineRows (r : Layout) (l : SourceLine) : List Row :=
  let limit := r.mark.stop - l.offset + 2
  let middle := (r.mark.start + r.mark.stop) / 2 - l.offset
  let underline (i : Nat) : Ink × String × String :=
    if i = middle then (r.ink, "┬", "─")
    else if r.mark.contains (l.offset + i) then (r.ink, "─", "─")
    else (.plain, " ", " ")
  let arrow (i : Nat) : Ink × String × String :=
    if i = middle then (r.ink, "╰", "─")
    else if middle < i then (r.ink, "─", "─")
    else (.plain, " ", " ")
  [r.numberMargin l.number ++ r.text l,
    r.blankMargin "│" ++ cells l limit underline,
    r.blankMargin "│" ++ cells l limit arrow ++ [plain (" " ++ r.diagnostic.message)]]

/-! ## Marks over several lines -/

/-- Each text in the ink of the mark. -/
def strokes (r : Layout) (texts : List String) : Row := texts.map fun text => ⟨r.ink, text⟩

def firstRow (r : Layout) (l : SourceLine) : Row :=
  r.numberMargin l.number ++ r.strokes ["╭", "─", "▶", " "] ++ r.text l

/-- The row that stands for all lines between the first and the last. -/
def gapRow (r : Layout) : Row := r.blankMargin "┆" ++ r.strokes ["┆"] ++ [plain "   "]

def lastRows (r : Layout) (l : SourceLine) : List Row :=
  let limit := l.chars.length + 2
  [r.numberMargin l.number ++ r.strokes ["├", "─", "▶", " "] ++ r.text l,
    r.blankMargin "│" ++ r.strokes ["│"] ++ [plain "   "] ++
      cells l limit (fun _ => (.plain, " ", " ")),
    r.blankMargin "│" ++ r.strokes ["╰", "─", "─", "─"] ++
      cells l limit (fun _ => (r.ink, "─", "─")) ++ [plain (" " ++ r.diagnostic.message)]]

/-- The rows of the lines with marked characters. -/
def lineRows (r : Layout) : List Row :=
  match r.lines with
  | [] => []
  | [l] => r.inlineRows l
  | first :: rest =>
    let gap := if rest.length = 1 then [] else [r.gapRow]
    r.firstRow first :: gap ++ (rest.getLast?.map r.lastRows).getD []

/-! ## Whole reports -/

/-- The place of the mark: line and column, both counted from 1. -/
def position (r : Layout) : String :=
  match r.lines with
  | [] => "?:?"
  | l :: _ => toString l.number ++ ":" ++ toString (r.mark.start - l.offset + 1)

def rows (r : Layout) : List Row :=
  let title := match r.diagnostic.severity with
    | .error => "Error:"
    | .warning => "Warning:"
  let indent := plain (times (r.numberWidth + 2) " ")
  [[⟨r.ink, title⟩, plain (" " ++ r.diagnostic.message)],
    [indent, ⟨.frame, "╭"⟩, ⟨.frame, "─"⟩, ⟨.frame, "["⟩,
      plain ("<unknown>:" ++ r.position), ⟨.frame, "]"⟩],
    [indent, ⟨.frame, "│"⟩]] ++
  r.lineRows ++
  [[⟨.frame, times (r.numberWidth + 2) "─" ++ "╯"⟩]]

end Layout

/-- One row as a line of text. -/
def renderRow (color : Bool) (row : Row) : String :=
  String.join (row.map (·.render color)) ++ "\n"

end Report

/-- The reports of some diagnostics, one after the other. -/
def report (source : String) (diagnostics : List Diagnostic) (color : Bool) : String :=
  String.join <| diagnostics.flatMap fun d =>
    (Report.Layout.ofDiagnostic source.toList d).rows.map (Report.renderRow color)

end GraphLogic
