import GraphLogic.Text.Scan
import GraphLogic.Toml.Value

/-!
# Scalars

The written forms of strings, numbers, booleans and moments in a configuration file.
-/

namespace GraphLogic.Toml.Written

/-! ## Characters -/

def isSpace (c : Char) : Bool := c == ' ' || c == '\t'

/-- A character that can stand in a line: all but the control characters, the tab excepted. -/
def isText (c : Char) : Bool := c == '\t' || (' ' ≤ c && c != '\x7f')

def isHexDigit (c : Char) : Bool :=
  c.isDigit || ('a' ≤ c && c ≤ 'f') || ('A' ≤ c && c ≤ 'F')

def digitValue (c : Char) : Nat :=
  if c.isDigit then c.toNat - '0'.toNat
  else if 'a' ≤ c then c.toNat - 'a'.toNat + 10
  else c.toNat - 'A'.toNat + 10

/-- The number that digits stand for. -/
def numeral (base : Nat) (digits : List Char) : Nat :=
  digits.foldl (fun n d => base * n + digitValue d) 0

open Scan

def newline : Scan Unit := exactly "\n" <|> exactly "\r\n"

/-! ## Strings -/

/-- The character whose code is written with `n` hexadecimal digits. -/
def codePoint (n : Nat) : Scan Char := do
  let digits ← manyUpTo n (char isHexDigit)
  let code := numeral 16 digits
  if digits.length = n ∧ code.isValidChar then return Char.ofNat code else failure

/-- The character that an escape stands for. -/
def escape : Scan Char := do
  exactly "\\"
  match ← char fun _ => true with
  | 'b' => return '\x08'
  | 't' => return '\t'
  | 'n' => return '\n'
  | 'f' => return '\x0c'
  | 'r' => return '\r'
  | '"' => return '"'
  | '\\' => return '\\'
  | 'u' => codePoint 4
  | 'U' => codePoint 8
  | _ => failure

/-- A string in double quotes. -/
def basicString : Scan String := do
  exactly "\""
  let text ← many (char (fun c => isText c && c != '"' && c != '\\') <|> escape)
  exactly "\""
  return String.ofList text

/-- A string in single quotes. -/
def literalString : Scan String := do
  exactly "'"
  let text ← run fun c => isText c && c != '\''
  exactly "'"
  return String.ofList text

/-- A string between triple quotes. Up to two quotes can stand together inside, also before the
closing ones. -/
def tripleQuoted (quote : Char) (piece : Scan (List Char)) : Scan String := do
  let one := String.ofList [quote]
  let two := String.ofList [quote, quote]
  let three := String.ofList [quote, quote, quote]
  let quoted (quotes : String) : Scan (List Char) := do
    exactly quotes
    return quotes.toList ++ (← piece)
  exactly three
  let _ ← maybe newline
  let text ← many (piece <|> quoted two <|> quoted one)
  let last ← (exactly (two ++ three) *> pure two) <|> (exactly (one ++ three) *> pure one) <|>
    (exactly three *> pure "")
  return String.ofList (text.flatten ++ last.toList)

/-- A backslash at the end of a line, with all white space up to the next text. -/
def continuation : Scan Unit := do
  exactly "\\"
  let _ ← run isSpace
  newline
  let _ ← many ((run1 isSpace *> pure ()) <|> newline)

def longBasicString : Scan String :=
  tripleQuoted '"' <|
    (([·]) <$> char fun c => isText c && c != '"' && c != '\\') <|>
    (continuation *> pure []) <|>
    (([·]) <$> escape) <|>
    (newline *> pure ['\n'])

def longLiteralString : Scan String :=
  tripleQuoted '\'' <|
    (([·]) <$> char fun c => isText c && c != '\'') <|> (newline *> pure ['\n'])

def string : Scan String :=
  longBasicString <|> basicString <|> longLiteralString <|> literalString

/-! ## Numbers -/

/-- Whether a sign is given and says minus. -/
def sign : Scan Bool := (exactly "-" *> pure true) <|> (exactly "+" *> pure false) <|> pure false

/-- Digits, with single underscores between them. -/
def digits (p : Char → Bool) : Scan (List Char) := do
  return (← char p) :: (← many (char p <|> (exactly "_" *> char p)))

/-- Decimal digits without a leading zero. -/
def plainDigits : Scan (List Char) := do
  let first ← char Char.isDigit
  if first = '0' then return ['0']
  else return first :: (← many (char Char.isDigit <|> (exactly "_" *> char Char.isDigit)))

/-- An integer of 64 bits. -/
def checked (n : Int) : Scan Int :=
  if -0x8000000000000000 ≤ n ∧ n ≤ 0x7fffffffffffffff then pure n else failure

def integer : Scan Int :=
  (do exactly "0x"; checked (numeral 16 (← digits isHexDigit))) <|>
  (do exactly "0o"; checked (numeral 8 (← digits fun c => '0' ≤ c && c ≤ '7'))) <|>
  (do exactly "0b"; checked (numeral 2 (← digits fun c => c == '0' || c == '1'))) <|>
  (do
    let negative ← sign
    let n : Int := numeral 10 (← plainDigits)
    checked (if negative then -n else n))

/-- The float nearest to `n * 10 ^ e`. Far outside the range of floats the exponent says enough. -/
def nearestFloat (n : Nat) (e : Int) : Float :=
  let magnitude := (Nat.toDigits 10 n).length + e
  if n = 0 ∨ magnitude < -400 then 0
  else if 400 < magnitude then 1 / 0
  else Float.ofScientific n (e < 0) e.natAbs

/-- The exponent of a float. -/
def exponent : Scan Int := do
  exactly "e" <|> exactly "E"
  let negative ← sign
  let n : Int := numeral 10 (← digits Char.isDigit)
  return if negative then -n else n

def float : Scan Float :=
  (do
    let negative ← sign
    let whole ← plainDigits
    let (fraction, e) ← (do return ([], ← exponent)) <|> (do
      exactly "."
      return (← digits Char.isDigit, (← maybe exponent).getD 0))
    let x := nearestFloat (numeral 10 (whole ++ fraction)) (e - fraction.length)
    let x := if negative then -x else x
    -- Too large a number is refused; one too small counts as negative infinity.
    if x == 1 / 0 then failure else return x) <|>
  (do
    let negative ← sign
    let x : Float ← (exactly "inf" *> pure (1 / 0)) <|> (exactly "nan" *> pure (0 / 0))
    return if negative then -x else x)

/-! ## Moments -/

/-- A number of `n` decimal digits between two bounds. -/
def bounded (n least greatest : Nat) : Scan Nat := do
  let digits ← manyUpTo n (char Char.isDigit)
  let k := numeral 10 digits
  if digits.length = n ∧ least ≤ k ∧ k ≤ greatest then return k else failure

def daysInMonth (year month : Nat) : Nat :=
  if month = 2 then
    if year % 4 = 0 ∧ (year % 100 ≠ 0 ∨ year % 400 = 0) then 29 else 28
  else if month ∈ [4, 6, 9, 11] then 30 else 31

def date : Scan Unit := do
  let year ← bounded 4 0 9999
  exactly "-"
  let month ← bounded 2 1 12
  exactly "-"
  let _ ← bounded 2 1 (daysInMonth year month)

/-- A time of day; a minute can have a leap second. -/
def time : Scan Unit := do
  let _ ← bounded 2 0 23
  exactly ":"
  let _ ← bounded 2 0 59
  exactly ":"
  let _ ← bounded 2 0 60
  let _ ← maybe (exactly "." *> run1 Char.isDigit)

/-- The distance to universal time. -/
def offset : Scan Unit :=
  (char (fun c => c == 'Z' || c == 'z') *> pure ()) <|> (do
    let _ ← char fun c => c == '+' || c == '-'
    let _ ← bounded 2 0 23
    exactly ":"
    let _ ← bounded 2 0 59)

def moment : Scan Unit :=
  (do
    date
    let _ ← maybe (do
      let _ ← char fun c => c == 'T' || c == 't' || c == ' '
      time
      maybe offset)) <|> time

/-! ## Scalars -/

def scalar : Scan Toml :=
  (Toml.string <$> string) <|>
  (moment *> pure .moment) <|>
  (Toml.float <$> float) <|>
  (Toml.integer <$> integer) <|>
  (exactly "true" *> pure (.boolean true)) <|>
  (exactly "false" *> pure (.boolean false))

end GraphLogic.Toml.Written
