/-!
# Similarity of words

The similarity of Jaro: how many characters of two words match, at about the same places, and how
many of those stand in another order. It decides which words are offered where one is unknown.
-/

namespace GraphLogic.Similarity

/-- The first position in `word`, from `start` up to `stop`, that holds `c` and is not yet taken. -/
def place? (word : List Char) (taken : List Nat) (start stop : Nat) (c : Char) : Option Nat :=
  (List.range' start (stop - start)).find? fun j => word[j]? == some c && !taken.contains j

/-- The characters of `a` that match in `b`, and the positions of their partners. -/
def matching (b : List Char) (range : Nat) : Nat → List Nat → List Char → List Char × List Nat
  | _, taken, [] => ([], taken)
  | i, taken, c :: a =>
    match place? b taken (i - range) (min b.length (i + range + 1)) c with
    | some j =>
      let (cs, taken) := matching b range (i + 1) (j :: taken) a
      (c :: cs, taken)
    | none => matching b range (i + 1) taken a

/-- The similarity of two words as a fraction, its numerator and its denominator. -/
def ratio (a b : List Char) : Nat × Nat :=
  let (cs, taken) := matching b (max a.length b.length / 2 - 1) 0 [] a
  let ds := (b.zipIdx.filter fun (_, j) => taken.contains j).map (·.1)
  let crossed := ((cs.zip ds).countP fun (c, d) => c != d) / 2
  let m := cs.length
  if m = 0 then (0, 1)
  else (m * m * b.length + m * m * a.length + (m - crossed) * a.length * b.length,
    3 * m * a.length * b.length)

/-- The candidate most similar to a word, if its similarity is above seven tenths. Of equals, the
last one counts. -/
def best? {α : Type} (name : α → String) (candidates : List α) (word : String) : Option α :=
  let step (found : Option (α × Nat × Nat)) (a : α) : Option (α × Nat × Nat) :=
    let (n, d) := ratio word.toList (name a).toList
    if 10 * n ≤ 7 * d then found
    else match found with
      | some (_, n', d') => if n' * d ≤ n * d' then some (a, n, d) else found
      | none => some (a, n, d)
  (candidates.foldl step none).map (·.1)

end GraphLogic.Similarity
