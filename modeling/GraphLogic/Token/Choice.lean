import GraphLogic.Text.Scan
import GraphLogic.Token.Lexeme

/-!
# Lexemes by ordered choice

The lexical grammar written down as a scanner: at each place the alternatives are tried in their
order, each takes what it can, and blanks are skipped in between. Such a scanner can fail, by not
coming to the end of the text.
-/

namespace GraphLogic.Lexeme

def word : Scan (List Char) := do
  return (← Scan.run1 isLetter) ++ (← Scan.run Char.isDigit)

def backslash : Scan Lexeme := do
  let _ ← Scan.char (· == '\\')
  return ofKeyword ((← Scan.maybe word).getD [])

/-- An exclamation mark takes the equals sign behind it. -/
def bang : Scan Lexeme := do
  let _ ← Scan.char (· == '!')
  match ← Scan.maybe (Scan.char (· == '=')) with
  | some _ => return token (.comparison .unequal)
  | none => return token .negation

def sign : Scan Lexeme := fun text =>
  match text with
  | [] => none
  | c :: rest => (Token.ofSign? c).map fun t => (token t, rest)

def name : Scan Lexeme := do return token (.ofName (String.ofList (← word)))

def illegal : Scan Lexeme := do return fault (.illegalCharacter (← Scan.char fun _ => true))

/-- The first alternative that reads something. -/
def choice : Scan Lexeme := backslash <|> bang <|> sign <|> name <|> illegal

/-- What `p` reads, with its place in a text of the length `stop`. -/
def located {α : Type} (stop : Nat) (p : Scan α) : Scan (Placed Span α) := do
  let before := (← get).length
  let a ← p
  let behind := (← get).length
  return ⟨⟨stop - before, stop - behind⟩, a⟩

/-- All lexemes of a text, with blanks around them, up to the end. -/
def lexer : Scan (List (Placed Span Lexeme)) := do
  let stop := (← get).length
  let _ ← Scan.run isBlank
  let ls ← Scan.many (located stop choice <* Scan.run isBlank)
  Scan.ended
  return ls

end GraphLogic.Lexeme
