import GraphLogic.VertexSet.Subsets

/-!
# The enumeration, call by call

The enumeration of subsets as it is carried out. A call gives out one subset and counts up in place:
the digits below the lowest zero are cleared, and that zero is set. Calls may go on behind the end.
The number of subsets still to come is computed in words of 64 bits, whose operations here have no
result where a digit would be lost or a difference would be negative.
-/

namespace GraphLogic

namespace Subsets

/-- One call: the subset that it gives, if one is left, and the enumeration afterwards. -/
def call (s : Subsets) : Option VertexSet × Subsets :=
  if s.done then (none, s)
  else
    let current := VertexSet.ofList ((s.digits.zipIdx.filter (·.1)).map (·.2))
    match s.digits.findIdx? (!·) with
    | some i =>
      let cleared := (s.digits.take i).map fun _ => false
      (some current, { s with digits := cleared ++ true :: s.digits.drop (i + 1) })
    | none => (some current, { s with done := true })

/-- The enumeration after `k` calls. -/
def after (s : Subsets) : Nat → Subsets
  | 0 => s
  | k + 1 => (s.after k).call.2

end Subsets

/-- A word of 64 bits. -/
abbrev Word := BitVec 64

namespace Word

def shiftLeft? (w : Word) (i : Nat) : Option Word :=
  if i < 64 ∧ w.toNat <<< i ≤ Subsets.largestWord then some (w <<< i) else none

def sub? (v w : Word) : Option Word :=
  if w.toNat ≤ v.toNat then some (v - w) else none

/-- The word with one more binary digit behind the others. -/
def append? (w : Word) (d : Bool) : Option Word :=
  (w.shiftLeft? 1).map (· ||| BitVec.ofNat 64 d.toNat)

end Word

/-- Bounds for the number of subsets still to come, computed in words. -/
def Subsets.wordHint? (s : Subsets) : Option (Word × Option Word) :=
  if s.done then some (0, some 0)
  else if 64 ≤ s.digits.length then some (BitVec.allOnes 64, none)
  else do
    let taken ← s.digits.reverse.foldlM Word.append? 0
    let all ← Word.shiftLeft? 1 s.digits.length
    let remaining ← all.sub? taken
    return (remaining, some remaining)

end GraphLogic
