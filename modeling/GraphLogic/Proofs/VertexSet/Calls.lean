import GraphLogic.Proofs.VertexSet.Enumeration
import GraphLogic.VertexSet.Calls

/-!
# Calls count

**Theorem (`calls_enumerate`).** Call number `k`, counted from zero, gives the set of the binary
digits of `k`, and nothing once there are no more sets.

What carries this along the calls is that the counter stands at the number of calls made
(`Subsets.Counts`), until it overflows: then it is marked as done. The number of subsets still to
come fits into a word, and so does every number on the way to it (`wordHint?_eq`).
-/

namespace GraphLogic

namespace Subsets

variable {n k : Nat} {s : Subsets} {ds : List Bool}

/-! ## One call -/

theorem zipIdx_filter_eq (i : Nat) (ds : List Bool) :
    ((ds.zipIdx i).filter (·.1)).map (·.2) = positions i ds := by
  induction ds generalizing i with
  | nil => rfl
  | cons d ds ih => cases d <;> simp [positions, ih]

/-- Counting up clears the digits below the lowest zero, and sets that one. -/
theorem increment?_eq (ds : List Bool) :
    increment? ds = (ds.findIdx? (!·)).map fun i =>
      (ds.take i).map (fun _ => false) ++ true :: ds.drop (i + 1) := by
  induction ds with
  | nil => rfl
  | cons d ds ih =>
    rw [List.findIdx?_cons]
    cases d with
    | false => simp [increment?]
    | true =>
      rw [increment?, ih]
      cases ds.findIdx? (!·) <;> simp

/-- A call does what a step of the enumeration does, and nothing when there is none. -/
theorem call_eq (s : Subsets) :
    s.call = match s.next? with
      | some (x, t) => (some x, t)
      | none => (none, s) := by
  simp only [call, next?, increment?_eq, zipIdx_filter_eq]
  split
  · rfl
  · cases s.digits.findIdx? (!·) <;> rfl

theorem call_of_done (h : s.done = true) : s.call = (none, s) := if_pos h

theorem call_fst (h : s.done = false) :
    s.call.1 = some (VertexSet.ofNumber s.digits.length (value s.digits)) := by
  rw [call_eq, next?, h, ← ofList_positions]
  cases increment? s.digits <;> rfl

theorem call_snd (h : s.done = false) :
    s.call.2 = match increment? s.digits with
      | some digits => { s with digits }
      | none => { s with done := true } := by
  rw [call_eq, next?, h]
  cases increment? s.digits <;> rfl

/-! ## Call after call -/

/-- `k` calls were made on the enumeration of the subsets of the first `n` ids. -/
structure Counts (n k : Nat) (s : Subsets) : Prop where
  width : s.digits.length = n
  before : k < 2 ^ n → s.done = false ∧ value s.digits = k
  behind : 2 ^ n ≤ k → s.done = true

theorem counts_ofSize (n : Nat) : Counts n 0 (ofSize n) where
  width := List.length_replicate
  before _ := ⟨rfl, value_replicate_false n⟩
  behind h := absurd h (by simp)

theorem Counts.call (h : Counts n k s) : Counts n (k + 1) s.call.2 := by
  by_cases hk : k < 2 ^ n
  · obtain ⟨hdone, hval⟩ := h.before hk
    rw [call_snd hdone]
    cases hinc : increment? s.digits with
    | some es =>
      obtain ⟨hlen, hsucc⟩ := value_increment hinc
      have hlt := value_lt es
      rw [capacity_eq, hlen, h.width, hsucc, hval] at hlt
      exact ⟨hlen.trans h.width, fun _ => ⟨hdone, by rw [hsucc, hval]⟩, fun hle => by omega⟩
    | none =>
      have hlast := value_of_increment_none hinc
      rw [capacity_eq, h.width, hval] at hlast
      exact ⟨h.width, fun hlt => by omega, fun _ => rfl⟩
  · have hdone := h.behind (Nat.le_of_not_lt hk)
    rw [call_of_done hdone]
    exact ⟨h.width, fun hlt => by omega, fun _ => hdone⟩

theorem counts_after (n k : Nat) : Counts n k ((ofSize n).after k) := by
  induction k with
  | zero => exact counts_ofSize n
  | succ k ih => exact ih.call

theorem call_after_of_lt (hk : k < 2 ^ n) :
    ((ofSize n).after k).call.1 = some (VertexSet.ofNumber n k) := by
  obtain ⟨hdone, hval⟩ := (counts_after n k).before hk
  rw [call_fst hdone, (counts_after n k).width, hval]

theorem call_after_of_le (hk : 2 ^ n ≤ k) : ((ofSize n).after k).call.1 = none := by
  rw [call_of_done ((counts_after n k).behind hk)]

theorem remaining_after (n k : Nat) : ((ofSize n).after k).remaining = 2 ^ n - k := by
  have h := counts_after n k
  by_cases hk : k < 2 ^ n
  · obtain ⟨hdone, hval⟩ := h.before hk
    simp [remaining, hdone, capacity_eq, h.width, hval]
  · have hle := Nat.le_of_not_lt hk
    simp [remaining, h.behind hle, Nat.sub_eq_zero_of_le hle]

/-! ## Each set once -/

theorem toSet_ofNumber (hn : n ≤ VertexSet.idLimit) :
    (VertexSet.ofNumber n k).toSet = {i | i < n ∧ k.testBit i = true} := by
  ext i
  rw [VertexSet.mem_toSet, VertexSet.contains_ofNumber, Set.mem_ofPred_eq]
  exact and_iff_left_of_imp fun h => Nat.lt_of_lt_of_le h.1 hn

theorem ofNumber_inj (hn : n ≤ VertexSet.idLimit) {l : Nat} (hk : k < 2 ^ n) (hl : l < 2 ^ n)
    (h : VertexSet.ofNumber n k = VertexSet.ofNumber n l) : k = l := by
  have hset := congrArg VertexSet.toSet h
  rw [toSet_ofNumber hn, toSet_ofNumber hn] at hset
  apply Nat.eq_of_testBit_eq
  intro i
  by_cases hi : i < n
  · have hbit := Set.ext_iff.mp hset i
    simp only [Set.mem_ofPred_eq, hi, true_and] at hbit
    exact Bool.eq_iff_iff.mpr hbit
  · have hpow : 2 ^ n ≤ 2 ^ i := Nat.pow_le_pow_right (by decide) (Nat.le_of_not_lt hi)
    rw [Nat.testBit_lt_two_pow (Nat.lt_of_lt_of_le hk hpow),
      Nat.testBit_lt_two_pow (Nat.lt_of_lt_of_le hl hpow)]

end Subsets

/-! ## Words -/

namespace Word

variable {m i : Nat}

theorem shiftLeft?_ofNat (hi : i < 64) (h : m * 2 ^ i < 2 ^ 64) :
    shiftLeft? (BitVec.ofNat 64 m) i = some (BitVec.ofNat 64 (m * 2 ^ i)) := by
  have hm : m < 2 ^ 64 := Nat.lt_of_le_of_lt (Nat.le_mul_of_pos_right m (Nat.two_pow_pos i)) h
  have hfits : (BitVec.ofNat 64 m).toNat <<< i ≤ Subsets.largestWord := by
    rw [BitVec.toNat_ofNat, Nat.mod_eq_of_lt hm, Nat.shiftLeft_eq]
    exact Nat.le_of_lt_succ h
  rw [shiftLeft?, if_pos ⟨hi, hfits⟩]
  congr 1
  apply BitVec.eq_of_toNat_eq
  rw [BitVec.toNat_shiftLeft, BitVec.toNat_ofNat, BitVec.toNat_ofNat, Nat.mod_eq_of_lt hm,
    Nat.shiftLeft_eq]

theorem sub?_ofNat {l : Nat} (hle : l ≤ m) (h : m < 2 ^ 64) :
    sub? (BitVec.ofNat 64 m) (BitVec.ofNat 64 l) = some (BitVec.ofNat 64 (m - l)) := by
  have hl : l < 2 ^ 64 := Nat.lt_of_le_of_lt hle h
  have hle' : (BitVec.ofNat 64 l).toNat ≤ (BitVec.ofNat 64 m).toNat := by
    rwa [BitVec.toNat_ofNat, BitVec.toNat_ofNat, Nat.mod_eq_of_lt h, Nat.mod_eq_of_lt hl]
  rw [sub?, if_pos hle']
  congr 1
  apply BitVec.eq_of_toNat_eq
  rw [BitVec.toNat_sub_of_le hle', BitVec.toNat_ofNat, BitVec.toNat_ofNat, BitVec.toNat_ofNat]
  omega

theorem append?_ofNat {d : Bool} (h : d.toNat + 2 * m < 2 ^ 64) :
    append? (BitVec.ofNat 64 m) d = some (BitVec.ofNat 64 (d.toNat + 2 * m)) := by
  have hor : 2 ^ 1 * m + d.toNat = 2 ^ 1 * m ||| d.toNat := Nat.two_pow_add_eq_or_of_lt d.toNat_lt m
  rw [append?, shiftLeft?_ofNat (by decide) (by omega), Option.map_some, Nat.mul_comm,
    ← BitVec.ofNat_or, ← hor, Nat.pow_one, Nat.add_comm]

end Word

namespace Subsets

variable {n k : Nat} {s : Subsets} {ds : List Bool}

/-- Folded into a word, the digits are the number that they stand for. -/
theorem foldlM_append?_eq (h : ds.length ≤ 64) :
    ds.reverse.foldlM Word.append? 0 = some (BitVec.ofNat 64 (value ds)) := by
  rw [List.foldlM_reverse]
  induction ds with
  | nil => rfl
  | cons d ds ih =>
    have hlt : value (d :: ds) < 2 ^ 64 := by
      have hcap := value_lt (d :: ds)
      rw [capacity_eq] at hcap
      exact Nat.lt_of_lt_of_le hcap (Nat.pow_le_pow_right (by decide) h)
    rw [List.foldrM_cons, ih (by simp at h; omega)]
    exact Word.append?_ofNat hlt

theorem wordHint?_eq (h : s.digits.length < 64) :
    s.wordHint? = some (BitVec.ofNat 64 s.remaining, some (BitVec.ofNat 64 s.remaining)) := by
  have hlt := value_lt s.digits
  have hcap : capacity s.digits < 2 ^ 64 := by
    rw [capacity_eq]
    exact Nat.pow_lt_pow_right (by decide) h
  have hall : Word.shiftLeft? 1 s.digits.length = some (BitVec.ofNat 64 (capacity s.digits)) := by
    rw [capacity_eq] at hcap ⊢
    have hshift := Word.shiftLeft?_ofNat (m := 1) h (by omega)
    rwa [Nat.one_mul] at hshift
  unfold wordHint? remaining
  split
  · rfl
  · rw [if_neg (Nat.not_le_of_lt h), foldlM_append?_eq (Nat.le_of_lt h), hall, Option.bind_eq_bind,
      Option.bind_some, Option.bind_some, Word.sub?_ofNat (Nat.le_of_lt hlt) hcap]
    rfl

theorem sizeHint_eq (h : s.digits.length < 64) : s.sizeHint = (s.remaining, some s.remaining) := by
  by_cases hdone : s.done = true
  · simp [sizeHint, remaining, hdone]
  · simp [sizeHint, hdone, h]

/-! ## The whole enumeration -/

theorem next?_eq_call (s : Subsets) : s.next? = s.call.1.map fun x => (x, s.call.2) := by
  rw [call_eq]
  cases s.next? <;> rfl

theorem ofNumber_zero (n : Nat) : VertexSet.ofNumber n 0 = VertexSet.empty := by
  simp [VertexSet.ofNumber, VertexSet.ofList]

/-- Each set of ids is given out, and by one call only. -/
theorem existsUnique_call_after (hn : n ≤ VertexSet.idLimit) {S : Set VertexId}
    (hS : ∀ i ∈ S, i < n) : ∃! k, ∃ x, ((ofSize n).after k).call.1 = some x ∧ x.toSet = S := by
  obtain ⟨x, hx, hxS⟩ := exists_mem_toList_ofSize hn hS
  rw [toList_ofSize] at hx
  obtain ⟨k, hk, rfl⟩ := List.mem_map.mp hx
  have hlt := List.mem_range.mp hk
  refine ⟨k, ⟨_, call_after_of_lt hlt, hxS⟩, ?_⟩
  rintro l ⟨y, hy, hyS⟩
  by_cases hl : l < 2 ^ n
  · rw [call_after_of_lt hl, Option.some_inj] at hy
    rw [← hy] at hyS
    exact ofNumber_inj hn hl hlt (VertexSet.toSet_inj.mp (hyS.trans hxS.symm))
  · rw [call_after_of_le (Nat.le_of_not_lt hl)] at hy
    cases hy

/-- **Calls count.** The enumeration of the subsets of the first `n` ids goes through all of them in
the order of their numbers, each once: call number `k` gives the set of the ids below `n` at whose
positions `k` has a binary digit, the empty set first and the full one last, and from number `2 ^ n`
on nothing. Before call number `k` the bounds for what is still to come are exact where there are
fewer than 64 ids, and no word on the way to them overflows. -/
theorem calls_enumerate (hn : n ≤ VertexSet.idLimit) :
    (∀ s : Subsets, s.next? = s.call.1.map fun x => (x, s.call.2)) ∧
    (∀ k < 2 ^ n, ∃ x, ((ofSize n).after k).call.1 = some x ∧
      ∀ i, x.contains i = true ↔ i < n ∧ k.testBit i = true) ∧
    (∀ k, 2 ^ n ≤ k → ((ofSize n).after k).call.1 = none) ∧
    (∀ S : Set VertexId, (∀ i ∈ S, i < n) →
      ∃! k, ∃ x, ((ofSize n).after k).call.1 = some x ∧ x.toSet = S) ∧
    ((ofSize n).after 0).call.1 = some VertexSet.empty ∧
    (∃ x, ((ofSize n).after (2 ^ n - 1)).call.1 = some x ∧ ∀ i, x.contains i = true ↔ i < n) ∧
    (n < 64 → ∀ k, ((ofSize n).after k).sizeHint = (2 ^ n - k, some (2 ^ n - k)) ∧
      ∃ w : Word, ((ofSize n).after k).wordHint? = some (w, some w) ∧ w.toNat = 2 ^ n - k) := by
  have hmem (k i : Nat) :
      (VertexSet.ofNumber n k).contains i = true ↔ i < n ∧ k.testBit i = true := by
    rw [← VertexSet.mem_toSet, toSet_ofNumber hn, Set.mem_ofPred_eq]
  have hlast : 2 ^ n - 1 < 2 ^ n := Nat.sub_lt (Nat.two_pow_pos n) Nat.one_pos
  refine ⟨next?_eq_call, ?_, ?_, ?_, ?_, ?_, ?_⟩
  · intro k hk
    exact ⟨_, call_after_of_lt hk, hmem k⟩
  · intro k hk
    exact call_after_of_le hk
  · intro S hS
    exact existsUnique_call_after hn hS
  · rw [call_after_of_lt (Nat.two_pow_pos n), ofNumber_zero]
  · refine ⟨_, call_after_of_lt hlast, ?_⟩
    intro i
    rw [hmem, Nat.testBit_two_pow_sub_one, decide_eq_true_iff, and_self]
  · intro h64 k
    have hwidth := (counts_after n k).width.trans_lt h64
    have hfits : 2 ^ n - k < 2 ^ 64 :=
      Nat.lt_of_le_of_lt (Nat.sub_le _ k) (Nat.pow_lt_pow_right (by decide) h64)
    rw [sizeHint_eq hwidth, wordHint?_eq hwidth, remaining_after]
    exact ⟨rfl, _, rfl, (BitVec.toNat_ofNat ..).trans (Nat.mod_eq_of_lt hfits)⟩

/-- Of the subsets of forty ids, the one with the number `2 ^ 39 + 5` has three members. -/
theorem calls_enumerate_forty :
    (40 : Nat) ≤ VertexSet.idLimit ∧
      ∃ x, ((ofSize 40).after (2 ^ 39 + 5)).call.1 = some x ∧ x.toSet = {0, 2, 39} ∧
        ∃ w : Word, ((ofSize 40).after (2 ^ 39 + 5)).wordHint? = some (w, some w) ∧
          w.toNat = 2 ^ 39 - 5 := by
  have hn : (40 : Nat) ≤ VertexSet.idLimit := by decide
  obtain ⟨-, hcall, -, -, -, -, hhint⟩ := calls_enumerate hn
  obtain ⟨x, hx, hmem⟩ := hcall (2 ^ 39 + 5) (by decide)
  obtain ⟨w, hw, hrest⟩ := (hhint (by decide) (2 ^ 39 + 5)).2
  refine ⟨hn, x, hx, ?_, w, hw, hrest⟩
  have hbits : ∀ i < 40, (2 ^ 39 + 5).testBit i = true ↔ i = 0 ∨ i = 2 ∨ i = 39 := by decide
  ext i
  rw [VertexSet.mem_toSet, hmem]
  constructor
  · rintro ⟨hi, hbit⟩
    exact (hbits i hi).mp hbit
  · intro hi
    have hlt : i < 40 := by
      rcases hi with rfl | rfl | rfl <;> decide
    exact ⟨hlt, (hbits i hlt).mpr hi⟩

end Subsets

end GraphLogic
