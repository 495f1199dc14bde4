import GraphLogic.VertexSet

/-!
# All subsets

The subsets of the first `n` ids, one after the other. A binary counter of `n` digits stands for
the next subset: an id belongs to it when the digit at its position is set. So the empty set comes
first and the full set last.
-/

namespace GraphLogic

structure Subsets where
  /-- The digits of the next subset, the lowest first. -/
  digits : List Bool
  /-- Whether the last subset was given out. -/
  done : Bool
  deriving DecidableEq, Repr

namespace Subsets

def ofSize (n : Nat) : Subsets := ⟨List.replicate n false, false⟩

/-- The number that digits stand for. -/
def value : List Bool → Nat
  | [] => 0
  | d :: ds => d.toNat + 2 * value ds

/-- The number of values that as many digits can have. -/
def capacity : List Bool → Nat
  | [] => 1
  | _ :: ds => 2 * capacity ds

/-- The digits of the next number, unless it needs one digit more. -/
def increment? : List Bool → Option (List Bool)
  | [] => none
  | false :: ds => some (true :: ds)
  | true :: ds => (increment? ds).map (false :: ·)

/-- The positions of the digits that are set, counted from `i`. -/
def positions (i : Nat) : List Bool → List VertexId
  | [] => []
  | true :: ds => i :: positions (i + 1) ds
  | false :: ds => positions (i + 1) ds

/-- The next subset, and what comes after it. -/
def next? (s : Subsets) : Option (VertexSet × Subsets) :=
  if s.done then none
  else
    let current := VertexSet.ofList (positions 0 s.digits)
    match increment? s.digits with
    | some digits => some (current, { s with digits })
    | none => some (current, { s with done := true })

/-- The number of subsets still to come. -/
def remaining (s : Subsets) : Nat :=
  if s.done then 0 else capacity s.digits - value s.digits

/-- The largest word of 64 bits. -/
def largestWord : Nat := 0xffffffffffffffff

/-- Bounds for the number of subsets still to come, in words of 64 bits: exact for fewer than 64
ids, otherwise the largest word and no upper bound. -/
def sizeHint (s : Subsets) : Nat × Option Nat :=
  if s.done then (0, some 0)
  else if s.digits.length < 64 then (s.remaining, some s.remaining)
  else (largestWord, none)

/-! ## The enumeration ends -/

theorem value_lt (ds : List Bool) : value ds < capacity ds := by
  induction ds with
  | nil => simp [value, capacity]
  | cons d ds ih =>
    have : d.toNat ≤ 1 := by cases d <;> simp
    simp only [value, capacity]
    omega

theorem capacity_congr {ds es : List Bool} (h : es.length = ds.length) :
    capacity es = capacity ds := by
  induction ds generalizing es with
  | nil => rw [List.eq_nil_of_length_eq_zero h]
  | cons d ds ih =>
    cases es with
    | nil => simp at h
    | cons e es => simp only [capacity, ih (Nat.succ.inj h)]

theorem value_increment {ds es : List Bool} (h : increment? ds = some es) :
    es.length = ds.length ∧ value es = value ds + 1 := by
  induction ds generalizing es with
  | nil => simp [increment?] at h
  | cons d ds ih =>
    cases d with
    | false =>
      obtain rfl := Option.some.inj h
      simp [value]
      omega
    | true =>
      obtain ⟨fs, hfs, rfl⟩ := Option.map_eq_some_iff.mp h
      obtain ⟨hlen, hval⟩ := ih hfs
      simp [value, hlen, hval]
      omega

theorem remaining_next {s t : Subsets} {x : VertexSet} (h : s.next? = some (x, t)) :
    t.remaining < s.remaining := by
  have hlt := value_lt s.digits
  unfold next? at h
  split at h
  · simp at h
  · rename_i hdone
    split at h
    · rename_i ds hds
      obtain ⟨hlen, hval⟩ := value_increment hds
      have hlt' := value_lt ds
      have hcap := capacity_congr hlen
      obtain ⟨-, rfl⟩ := Prod.mk.inj (Option.some.inj h)
      simp only [remaining, hdone, hval, hcap] at hlt' ⊢
      simp
      omega
    · obtain ⟨-, rfl⟩ := Prod.mk.inj (Option.some.inj h)
      simp only [remaining, hdone]
      simp
      omega

end Subsets

end GraphLogic
