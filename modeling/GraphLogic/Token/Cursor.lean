import GraphLogic.Token.Lexeme

/-!
# Cursors over tokens

A cursor walks over a list of tokens that ends with the end of the input.
-/

namespace GraphLogic

structure Cursor where
  /-- The tokens still to come. -/
  remaining : List (Placed Span Token)
  /-- The last token of the list, which is the end of the input. -/
  last : Placed Span Token
  deriving DecidableEq, Repr

namespace Cursor

/-- A cursor at the start of `tokens`. Where the list does not end with the end of the input, that
token is put behind the last one. -/
def ofTokens (tokens : List (Placed Span Token)) : Cursor :=
  let stop := (tokens.getLast?.map (·.place.stop)).getD 0
  let ending := ⟨⟨stop, stop⟩, .endOfInput⟩
  match tokens.getLast? with
  | some ⟨place, .endOfInput⟩ => ⟨tokens, ⟨place, .endOfInput⟩⟩
  | _ => ⟨tokens ++ [ending], ending⟩

def ofSource (source : String) : Except (Placed Span LexicalFault) Cursor :=
  (tokenize source).map ofTokens

/-- The next token; past the last one, the last one. -/
def peek (c : Cursor) : Placed Span Token := c.remaining.head?.getD c.last

/-- The next token and the cursor behind it. -/
def next? (c : Cursor) : Option (Placed Span Token × Cursor) :=
  match c.remaining with
  | [] => none
  | t :: rest => some (t, { c with remaining := rest })

end Cursor

end GraphLogic
