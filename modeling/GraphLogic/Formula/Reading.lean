import GraphLogic.Token.Cursor

/-!
# Reading formulas

A formula is read token by token, without backtracking. Connectives bind loosest, all at one level
and to the left; negation binds tighter; the body of a quantifier is a quantifier, a predicate or
a formula in parentheses.

The state of the reader says what was read so far, one `Level` for each open parenthesis, and what
has to come next (`Phase`). Each token leads to one state or to none. So the first token without a
next state is the first that cannot continue any formula, and the tokens that would have had one
are exactly those that a syntax error lists.
-/

namespace GraphLogic

/-- A sign that waits for its operand: a negation, or a quantifier with its variable. -/
inductive Head
  | negation (sign : Span)
  | quantifier (quantifier : Placed Span Quantifier) (bound : Placed Span Variable)
  deriving DecidableEq, Repr

/-- The head with its operand. -/
def Head.apply : Head → Formula Span → Formula Span
  | negation s, φ => .negation (s.upTo φ.place) s φ
  | quantifier q x, φ => .quantified (q.place.upTo φ.place) q x φ

/-- What stands before the operand being read, back to the nearest open parenthesis. -/
structure Level where
  /-- The formula so far and the connective after it. -/
  left : Option (Formula Span × Placed Span Connective) := none
  /-- The heads of the operand, innermost first. -/
  heads : List Head := []
  deriving DecidableEq, Repr

namespace Level

def addHead (l : Level) (h : Head) : Level := { l with heads := h :: l.heads }

/-- The formula that the level becomes with `φ` as its innermost operand. -/
def fill (l : Level) (φ : Formula Span) : Formula Span :=
  let operand := l.heads.foldl (fun ψ h => h.apply ψ) φ
  match l.left with
  | none => operand
  | some (ψ, c) => .binary (ψ.place.cover operand.place) c ψ operand

end Level

/-- What has to come next. -/
inductive Phase
  /-- An operand of a connective or a negation. -/
  | operand
  /-- The body of a quantifier. -/
  | body
  /-- The variable of a quantifier. -/
  | binder (quantifier : Placed Span Quantifier)
  /-- The parenthesis that opens the arguments of a relation. -/
  | opening (relation : Placed Span Relation)
  /-- The arguments of a set variable, or a comparison with it. -/
  | afterSet (x : Placed Span Variable)
  /-- A comparison with an element variable. -/
  | afterElement (x : Placed Span Variable)
  /-- The right operand of a comparison. -/
  | compared (left : Placed Span Variable) (operator : Placed Span Comparison)
  /-- An argument of a relation. -/
  | argument (relation : Placed Span Relation) (given : List (Placed Span Variable))
  /-- What stands behind an argument. -/
  | separator (relation : Placed Span Relation) (given : List (Placed Span Variable))
  /-- What can follow a complete formula. -/
  | complete (formula : Formula Span)
  deriving DecidableEq, Repr

structure Reader where
  phase : Phase := .operand
  level : Level := {}
  /-- The open parentheses and the levels outside them, innermost first. -/
  outer : List (Span × Level) := []
  deriving DecidableEq, Repr

namespace Reader

/-- The state after the predicate or parenthesized formula `φ`. -/
def fill (r : Reader) (φ : Formula Span) : Reader :=
  { r with phase := .complete (r.level.fill φ), level := {} }

/-- The state after a token that starts a quantifier's body. -/
def begin? (r : Reader) (t : Placed Span Token) : Option Reader :=
  match t.value with
  | .quantifier q => some { r with phase := .binder ⟨t.place, q⟩ }
  | .edge => some { r with phase := .opening ⟨t.place, .edge⟩ }
  | .var ⟨.set, name⟩ => some { r with phase := .afterSet ⟨t.place, ⟨.set, name⟩⟩ }
  | .var ⟨.element, name⟩ => some { r with phase := .afterElement ⟨t.place, ⟨.element, name⟩⟩ }
  | .leftParen => some { phase := .operand, level := {}, outer := (t.place, r.level) :: r.outer }
  | _ => none

/-- The state after a token, if the token can come next. -/
def step? (r : Reader) (t : Placed Span Token) : Option Reader :=
  match r.phase with
  | .operand =>
    match t.value with
    | .negation => some { r with level := r.level.addHead (.negation t.place) }
    | _ => r.begin? t
  | .body => r.begin? t
  | .binder q =>
    match t.value with
    | .var x =>
      some { r with phase := .body, level := r.level.addHead (.quantifier q ⟨t.place, x⟩) }
    | _ => none
  | .opening s =>
    match t.value with
    | .leftParen => some { r with phase := .argument s [] }
    | _ => none
  | .afterSet x =>
    match t.value with
    | .leftParen => some { r with phase := .argument ⟨x.place, .set x.value.name⟩ [] }
    | .comparison o => some { r with phase := .compared x ⟨t.place, o⟩ }
    | _ => none
  | .afterElement x =>
    match t.value with
    | .comparison o => some { r with phase := .compared x ⟨t.place, o⟩ }
    | _ => none
  | .compared x o =>
    match t.value with
    | .var y => some (r.fill (.comparison (x.place.upTo t.place) o x ⟨t.place, y⟩))
    | _ => none
  | .argument s xs =>
    match t.value with
    | .var x => some { r with phase := .separator s (xs ++ [⟨t.place, x⟩]) }
    | _ => none
  | .separator s xs =>
    match t.value with
    | .comma => some { r with phase := .argument s xs }
    | .rightParen => some (r.fill (.relation (s.place.upTo t.place) s xs))
    | _ => none
  | .complete φ =>
    match t.value, r.outer with
    | .connective c, _ =>
      some { r with phase := .operand, level := { left := some (φ, ⟨t.place, c⟩) } }
    | .rightParen, (opened, l) :: outer =>
      some (fill { r with level := l, outer } (φ.moveTo (opened.upTo t.place)))
    | _, _ => none

/-- The formula that was read, if the input can end here. -/
def result? (r : Reader) : Option (Formula Span) :=
  match r.phase, r.outer with
  | .complete φ, [] => some φ
  | _, _ => none

/-- Whether a token can come next. -/
def admits (r : Reader) (t : Token) : Bool :=
  match t with
  | .endOfInput => r.result?.isSome
  | t => (r.step? ⟨⟨0, 0⟩, t⟩).isSome

end Reader

/-- How a syntax error speaks of a token that was expected. -/
def Token.description : Token → String
  | var _ => "variable"
  | endOfInput => "end of input"
  | t => "'" ++ t.text ++ "'"

/-- One token of each description, in the order of their descriptions. -/
def Token.samples : List Token :=
  [leftParen, rightParen, comma, comparison .equal, edge, negation, connective .implies,
    connective .iff, quantifier .universal, quantifier .existential, connective .and,
    connective .or, comparison .unequal, endOfInput, var ⟨.element, "x"⟩]

/-- A token that cannot continue a formula, and the tokens that could. -/
structure SyntaxError where
  expected : List Token
  /-- The token itself; nothing where the tokens ran out. -/
  found : Option Token
  place : Span
  deriving DecidableEq, Repr

namespace SyntaxError

/-- The alternatives as `a`, `a or b`, `a, b or c`, … -/
def alternatives : List String → String
  | [] => ""
  | [a] => a
  | [a, b] => a ++ " or " ++ b
  | a :: rest => a ++ ", " ++ alternatives rest

def foundText (e : SyntaxError) : String :=
  match e.found with
  | none | some .endOfInput => "end of input"
  | some t => "'" ++ t.text ++ "'"

def message (e : SyntaxError) : String :=
  match e.expected with
  | [] => "Unexpected " ++ e.foundText
  | ts => "Expected " ++ alternatives (ts.map Token.description) ++ ", but found " ++ e.foundText

end SyntaxError

namespace Reader

/-- The error at a token that cannot come next. -/
def refuse (r : Reader) (t : Placed Span Token) : SyntaxError where
  expected := Token.samples.filter r.admits
  found := some t.value
  place := t.place

/-- The error where the tokens ran out, at offset `stop`; it lists the fixed signs only. -/
def refuseNothing (r : Reader) (stop : Nat) : SyntaxError where
  expected := Token.samples.filter fun t => r.admits t && t.description != "variable"
  found := none
  place := ⟨stop, stop + 1⟩

/-- Reads one formula, up to the first end of the input behind it. -/
def read (r : Reader) (stop : Nat) : List (Placed Span Token) → Except SyntaxError (Formula Span)
  | [] => .error (r.refuseNothing stop)
  | t :: rest =>
    if t.value = .endOfInput then
      match r.result? with
      | some φ => .ok φ
      | none => .error (r.refuse t)
    else
      match r.step? t with
      | some next => next.read stop rest
      | none => .error (r.refuse t)

end Reader

/-- The formula that the remaining tokens of a cursor spell. -/
def Cursor.formula (c : Cursor) : Except SyntaxError (Formula Span) :=
  ({} : Reader).read c.last.place.stop c.remaining

end GraphLogic
