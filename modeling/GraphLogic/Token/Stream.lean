import GraphLogic.Token.Cursor

/-!
# Streams of tokens

A cursor as it is kept: the tokens stay where they are, and a position counts those that were taken.
A stream can be asked in any order for the next token, with or without taking it, and for all that
are left, also behind the last of them.
-/

namespace GraphLogic

/-- Tokens that end with the end of the input, and how many of them were taken. -/
structure TokenStream where
  tokens : List (Placed Span Token)
  position : Nat
  ends : ∃ place, tokens.getLast? = some ⟨place, .endOfInput⟩

theorem Cursor.exists_getLast?_ofTokens (tokens : List (Placed Span Token)) :
    ∃ place, (ofTokens tokens).remaining.getLast? = some ⟨place, .endOfInput⟩ ∧
      (ofTokens tokens).last = ⟨place, .endOfInput⟩ := by
  unfold ofTokens
  dsimp only
  split
  · next place hlast => exact ⟨place, hlast, rfl⟩
  · exact ⟨_, List.getLast?_concat, rfl⟩

namespace TokenStream

/-- A stream at the start of `tokens`, with the end of the input behind them. -/
def ofTokens (tokens : List (Placed Span Token)) : TokenStream where
  tokens := (Cursor.ofTokens tokens).remaining
  position := 0
  ends :=
    have ⟨place, hlast, _⟩ := Cursor.exists_getLast?_ofTokens tokens
    ⟨place, hlast⟩

def ofSource (source : String) : Except (Placed Span LexicalFault) TokenStream :=
  (tokenize source).map ofTokens

theorem tokens_ne_nil (s : TokenStream) : s.tokens ≠ [] := by
  obtain ⟨place, hlast⟩ := s.ends
  exact List.ne_nil_of_mem (List.mem_of_getLast? hlast)

/-- The end of the input behind all tokens. -/
def last (s : TokenStream) : Placed Span Token := s.tokens.getLast s.tokens_ne_nil

/-- The next token; behind the last one, the last one. -/
def peek (s : TokenStream) : Placed Span Token := s.tokens[s.position]?.getD s.last

/-- The tokens that were not taken. -/
def remaining (s : TokenStream) : List (Placed Span Token) := s.tokens.drop s.position

/-- Takes the next token, if there is one. -/
def next (s : TokenStream) : Option (Placed Span Token) × TokenStream :=
  match s.tokens[s.position]? with
  | none => (none, s)
  | some t => (some t, { s with position := s.position + 1 })

/-- The cursor over the tokens that were not taken. -/
def cursor (s : TokenStream) : Cursor := ⟨s.remaining, s.last⟩

/-! ## Call after call -/

/-- What a stream is asked for. -/
inductive Call
  | peek
  | next
  | remaining
  deriving DecidableEq, Repr

/-- The stream after a call. Only `next` moves it. -/
def step (s : TokenStream) : Call → TokenStream
  | .peek | .remaining => s
  | .next => s.next.2

def after (s : TokenStream) (calls : List Call) : TokenStream := calls.foldl step s

end TokenStream

end GraphLogic
