import GraphLogic.Text.Blank
import GraphLogic.Text.Span
import GraphLogic.Text.Width

/-!
# Lines of a source text

A line runs up to and with its terminator. It is shown without the blanks at its end, and with
tabs as spaces up to the next multiple of four columns.
-/

namespace GraphLogic

/-- A carriage return with a line feed behind it is one terminator; else each of these is. -/
def isLineTerminator (c : Char) : Bool :=
  c == '\n' || c == '\x0b' || c == '\x0c' || c == '\r' || c == '\u0085' || c == '\u2028' ||
    c == '\u2029'

/-- The lines of a text, with their terminators. -/
def splitLines : List Char → List (List Char)
  | [] => []
  | c :: rest =>
    match splitLines rest with
    | [] => [[c]]
    | line :: lines =>
      if isLineTerminator c && !(c == '\r' && rest.head? == some '\n') then [c] :: line :: lines
      else (c :: line) :: lines

structure SourceLine where
  /-- The position of the line among the lines of its text, counted from 1. -/
  number : Nat
  /-- The offset of its first character. -/
  offset : Nat
  chars : List Char
  deriving DecidableEq, Repr

namespace SourceLine

/-- Numbers lines, from `number` and `offset` on. -/
def enumerate (number offset : Nat) : List (List Char) → List SourceLine
  | [] => []
  | chars :: lines =>
    ⟨number, offset, chars⟩ :: enumerate (number + 1) (offset + chars.length) lines

/-- The lines of a text. -/
def ofText (text : List Char) : List SourceLine := enumerate 1 0 (splitLines text)

/-- The offset behind the last character of the line. -/
def stop (l : SourceLine) : Nat := l.offset + l.chars.length

def contains (l : SourceLine) (offset : Nat) : Bool := l.offset ≤ offset && offset < l.stop

/-- The characters that are shown. -/
def shown (l : SourceLine) : List Char := trimEnd l.chars

/-- The number of columns that the character at position `i` of a line takes. -/
def width (c : Char) (i : Nat) : Nat :=
  if c = '\t' then 4 - i % 4 else if isBlank c then 1 else charWidth c

/-- The columns of the first `n` positions of the line; positions behind its end take one. -/
def widths (l : SourceLine) (n : Nat) : List Nat :=
  (l.shown.zipIdx.map (fun (c, i) => width c i) ++ List.replicate n 1).take n

end SourceLine

end GraphLogic
