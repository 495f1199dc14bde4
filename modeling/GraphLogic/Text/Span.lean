/-!
# Spans

A span is a half-open interval of character offsets into a text. `Placed σ α` pairs a value with
a place; the place is a span for what was read from a text, and `Unit` for what was built by hand.
-/

namespace GraphLogic

/-- The characters from offset `start` up to, and not including, offset `stop`. -/
structure Span where
  start : Nat
  stop : Nat
  deriving DecidableEq, Repr, Inhabited

namespace Span

def length (s : Span) : Nat := s.stop - s.start

def isEmpty (s : Span) : Bool := s.start == s.stop

/-- From the start of one span to the end of another. -/
def upTo (first last : Span) : Span := ⟨first.start, last.stop⟩

/-- The smallest span that covers both. -/
def cover (a b : Span) : Span := ⟨min a.start b.start, max a.stop b.stop⟩

/-- From the start of the first span to the end of the last. -/
def hull (ps : List Span) : Span := (ps.head?.getD default).upTo (ps.getLast?.getD default)

/-- The characters of `text` inside the span; what lies beyond the end of the text is left out. -/
def cut (s : Span) (text : String) : String :=
  String.ofList ((text.toList.drop s.start).take s.length)

protected def toString (s : Span) : String := s!"{s.start}..{s.stop}"

end Span

/-- A value and its place. -/
structure Placed (σ : Type) (α : Type) where
  place : σ
  value : α
  deriving DecidableEq, Repr

namespace Placed

/-- The same value at the place that `f` gives it. -/
def mapPlace {σ τ α : Type} (f : σ → τ) (x : Placed σ α) : Placed τ α := ⟨f x.place, x.value⟩

end Placed

end GraphLogic
