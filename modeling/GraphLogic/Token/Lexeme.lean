import GraphLogic.Text.Blank
import GraphLogic.Text.Letter
import GraphLogic.Token

/-!
# Lexemes

A text is cut into lexemes, each as long as possible, with blanks between them. A lexeme is a
token or a fault; a text without faults is a list of tokens that ends with the end of the input,
and a text with faults is refused at the first of them.
-/

namespace GraphLogic

/-- What can be wrong with a lexeme. -/
inductive LexicalFault
  /-- A backslash that no word follows. -/
  | missingKeyword
  | unknownKeyword (word : String)
  | illegalCharacter (c : Char)
  deriving DecidableEq, Repr

def LexicalFault.message : LexicalFault → String
  | missingKeyword => "Expected keyword after '\\'"
  | unknownKeyword word => "Unknown keyword '\\" ++ word ++ "'"
  | illegalCharacter c => "Illegal character '" ++ c.toString ++ "'"

inductive Lexeme
  | token (t : Token)
  | fault (f : LexicalFault)
  deriving DecidableEq, Repr

/-- The longest word at the start of a text: a run of letters and, after at least one letter, a
run of digits. -/
def leadingWord (text : List Char) : List Char :=
  match text.takeWhile isLetter with
  | [] => []
  | letters => letters ++ (text.dropWhile isLetter).takeWhile Char.isDigit

namespace Lexeme

/-- The lexeme of a backslash and the word after it. -/
def ofKeyword (word : List Char) : Lexeme :=
  if word.isEmpty then fault .missingKeyword
  else match Token.ofKeyword? (String.ofList word) with
    | some t => token t
    | none => fault (.unknownKeyword (String.ofList word))

/-- The lexeme that starts with `c`, and the number of characters of `rest` that it takes. -/
def first (c : Char) (rest : List Char) : Lexeme × Nat :=
  if c = '\\' then
    (ofKeyword (leadingWord rest), (leadingWord rest).length)
  else if c = '!' then
    if rest.head? = some '=' then (token (.comparison .unequal), 1) else (token .negation, 0)
  else match Token.ofSign? c with
    | some t => (token t, 0)
    | none =>
      if isLetter c then
        let word := leadingWord (c :: rest)
        (token (.ofName (String.ofList word)), word.length - 1)
      else (fault (.illegalCharacter c), 0)

/-- The lexemes of a text that starts at offset `start`. -/
def scan (start : Nat) : List Char → List (Placed Span Lexeme)
  | [] => []
  | c :: rest =>
    if isBlank c then scan (start + 1) rest
    else
      let (lexeme, taken) := first c rest
      let stop := start + 1 + taken
      ⟨⟨start, stop⟩, lexeme⟩ :: scan stop (rest.drop taken)
termination_by text => text.length

end Lexeme

/-- All lexemes of a text, faults included. -/
def lexemes (source : String) : List (Placed Span Lexeme) := Lexeme.scan 0 source.toList

/-- The tokens up to the first fault, or that fault. -/
def Lexeme.tokens : List (Placed Span Lexeme) →
    Except (Placed Span LexicalFault) (List (Placed Span Token))
  | [] => .ok []
  | ⟨place, .fault f⟩ :: _ => .error ⟨place, f⟩
  | ⟨place, .token t⟩ :: rest => (tokens rest).map (⟨place, t⟩ :: ·)

/-- The tokens of a text, the end of the input last, or the first fault. -/
def tokenize (source : String) : Except (Placed Span LexicalFault) (List (Placed Span Token)) :=
  let stop := source.toList.length
  (Lexeme.tokens (lexemes source)).map (· ++ [⟨⟨stop, stop⟩, .endOfInput⟩])

end GraphLogic
