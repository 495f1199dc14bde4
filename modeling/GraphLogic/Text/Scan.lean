/-!
# Scanning

A scanner reads something at the start of a text and leaves the rest, or fails. `p <|> q` tries `q`
where `p` fails, from the same place.
-/

namespace GraphLogic

abbrev Scan (α : Type) := StateT (List Char) Option α

namespace Scan

variable {α β : Type}

/-- One character with a property. -/
def char (p : Char → Bool) : Scan Char := fun text =>
  match text with
  | c :: rest => if p c then some (c, rest) else none
  | [] => none

/-- The text `word`. -/
def exactly (word : String) : Scan Unit := fun text =>
  if word.toList.isPrefixOf text then some ((), text.drop word.length) else none

/-- The longest run of characters with a property. -/
def run (p : Char → Bool) : Scan (List Char) := fun text =>
  some (text.takeWhile p, text.dropWhile p)

/-- The longest nonempty run of characters with a property. -/
def run1 (p : Char → Bool) : Scan (List Char) := do
  return (← char p) :: (← run p)

/-- The end of the text. -/
def ended : Scan Unit := fun text => if text.isEmpty then some ((), []) else none

/-- What `p` reads, or nothing. -/
def maybe (p : Scan α) : Scan (Option α) := (some <$> p) <|> pure none

/-- What `p` reads up to `limit` times, one after the other. -/
def manyUpTo (limit : Nat) (p : Scan α) : Scan (List α) :=
  match limit with
  | 0 => pure []
  | limit + 1 => do
    match ← maybe p with
    | some a => return a :: (← manyUpTo limit p)
    | none => return []

/-- What `p` reads, as often as it reads something. Each time takes at least one character, so the
length of the text bounds their number. -/
def many (p : Scan α) : Scan (List α) := do manyUpTo (← get).length p

/-- What `p` reads one or more times, with `separator` in between. -/
def separated (p : Scan α) (separator : Scan β) : Scan (List α) := do
  return (← p) :: (← many (separator *> p))

/-- What `p` makes of a whole text. -/
def all? (p : Scan α) (text : List Char) : Option α := (p <* ended).run' text

end Scan

end GraphLogic
