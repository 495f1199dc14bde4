import GraphLogic.Token.Cursor

/-!
# Parsers with backtracking

A parser reads something at the start of some tokens, or misses a token and says which ones could
have stood in its place. `p <|> q` tries `q` from the same place where `p` misses.

What was missed by an alternative that was given up is kept, as it may be what is wrong with the
text: of all misses, the one furthest in the text counts, and those at one place are taken
together.
-/

namespace GraphLogic

/-- A token that could not be read, and the tokens that could have stood there. -/
structure Miss where
  /-- The tokens from that place on. -/
  rest : List (Placed Span Token)
  expected : List Token
  deriving DecidableEq, Repr

/-- The miss that is further in the text; at one place, both together. -/
def Miss.furthest (m n : Miss) : Miss :=
  if m.rest.length < n.rest.length then m
  else if n.rest.length < m.rest.length then n
  else { m with expected := m.expected ++ n.expected }

/-- What was read at the start of some tokens. -/
structure Parsed (α : Type) where
  value : α
  /-- The tokens behind it. -/
  rest : List (Placed Span Token)
  /-- The furthest miss of the alternatives that were given up. -/
  missed : Option Miss
  deriving DecidableEq, Repr

structure Parse (α : Type) where
  run : List (Placed Span Token) → Except Miss (Parsed α)

namespace Parse

variable {α β : Type}

def andThen (p : Parse α) (f : α → Parse β) : Parse β where
  run ts :=
    match p.run ts with
    | .error m => .error m
    | .ok a =>
      match (f a.value).run a.rest with
      | .error m => .error (a.missed.elim m m.furthest)
      | .ok b => .ok { b with missed := a.missed.merge Miss.furthest b.missed }

def otherwise (p q : Parse α) : Parse α where
  run ts :=
    match p.run ts with
    | .ok a => .ok a
    | .error m =>
      match q.run ts with
      | .error n => .error (m.furthest n)
      | .ok b => .ok { b with missed := (some m).merge Miss.furthest b.missed }

instance : Monad Parse where
  pure a := ⟨fun ts => .ok ⟨a, ts, none⟩⟩
  bind := andThen

instance : OrElse (Parse α) := ⟨fun p q => p.otherwise (q ())⟩

/-! ## Single tokens -/

/-- The token `t`, which stands for `a`. -/
def just (t : Token) (a : α) : Parse α where
  run
    | [] => .error ⟨[], [t]⟩
    | u :: rest => if u.value = t then .ok ⟨a, rest, none⟩ else .error ⟨u :: rest, [t]⟩

/-- A token that stands for something by `f`. In the place of another one `expected` is listed;
where the tokens run out, nothing is. -/
def select (expected : Token) (f : Token → Option α) : Parse α where
  run
    | [] => .error ⟨[], []⟩
    | u :: rest =>
      match f u.value with
      | some a => .ok ⟨a, rest, none⟩
      | none => .error ⟨u :: rest, [expected]⟩

/-- One of the tokens `f a`, which stands for `a`. -/
def oneOf (f : α → Token) : List α → Parse α
  | [] => ⟨fun ts => .error ⟨ts, []⟩⟩
  | a :: as => just (f a) a <|> oneOf f as

/-! ## Places -/

/-- What `f` makes of what `p` reads and of its place, from the first token read to the last. -/
def mapWithSpan (f : α → Span → β) (p : Parse α) : Parse β where
  run ts :=
    match p.run ts with
    | .error m => .error m
    | .ok a =>
      let used := ts.take (ts.length - a.rest.length)
      .ok ⟨f a.value (Span.hull (used.map (·.place))), a.rest, a.missed⟩

def located (p : Parse α) : Parse (Placed Span α) := p.mapWithSpan fun a place => ⟨place, a⟩

/-! ## Repetition and recursion -/

/-- What `p` reads, or nothing. -/
def maybe (p : Parse α) : Parse (Option α) := (some <$> p) <|> pure none

/-- What `p` reads up to `limit` times, one after the other. -/
def manyUpTo (limit : Nat) (p : Parse α) : Parse (List α) :=
  match limit with
  | 0 => pure []
  | limit + 1 => do
    match ← maybe p with
    | some a => return a :: (← manyUpTo limit p)
    | none => return []

/-- What `p` reads, as often as it reads something. Each time takes at least one token, so the
number of tokens bounds the repetition. -/
def many (p : Parse α) : Parse (List α) where
  run ts := (manyUpTo (ts.length + 1) p).run ts

/-- What `p` reads one or more times, with `separator` in between. -/
def separated (p : Parse α) (separator : Token) : Parse (List α) := do
  return (← p) :: (← many (do just separator (); p))

/-- What `p` reads, with a token behind it. -/
def before (closing : Token) (p : Parse α) : Parse α := do
  let a ← p
  just closing ()
  return a

/-- What `p` reads between two tokens. -/
def between (opening closing : Token) (p : Parse α) : Parse α := do
  just opening ()
  p.before closing

/-- A parser that is part of itself, down to some depth. -/
def unrolled (f : Parse α → Parse α) : Nat → Parse α
  | 0 => ⟨fun ts => .error ⟨ts, []⟩⟩
  | depth + 1 => f (unrolled f depth)

/-- A parser that is part of itself. It takes a token each time before it comes to itself again, so
the number of tokens bounds the depth. -/
def recursive (f : Parse α → Parse α) : Parse α where
  run ts := (unrolled f (ts.length + 1)).run ts

end Parse

end GraphLogic
