import GraphLogic.Proofs.VertexSet.Membership
import GraphLogic.VertexSet.Subsets
import Mathlib.Data.Nat.Bitwise

/-!
# The enumeration of subsets

The digits of the counter are the binary digits of a number (`value`), and counting up gives the
subsets with the numbers from zero to the last one (`toList_ofSize`). As every set of ids below
`n` is the set of binary digits of a number below `2 ^ n`, every subset comes up
(`exists_mem_toList_ofSize`).
-/

namespace GraphLogic

variable {n k : Nat} {i : VertexId}

/-- The ids below `n` at whose positions `k` has a binary digit. -/
def VertexSet.ofNumber (n k : Nat) : VertexSet :=
  VertexSet.ofList ((List.range n).filter fun i => k.testBit i)

theorem VertexSet.contains_ofNumber :
    (VertexSet.ofNumber n k).contains i = true ↔ (i < n ∧ k.testBit i = true) ∧ i < idLimit := by
  unfold VertexSet.ofNumber
  rw [contains_ofList, List.mem_filter, List.mem_range]

namespace Subsets

variable {s t : Subsets} {x : VertexSet} {ds es : List Bool}

/-! ## Digits and numbers -/

theorem capacity_eq (ds : List Bool) : capacity ds = 2 ^ ds.length := by
  induction ds with
  | nil => rfl
  | cons d ds ih => rw [capacity, ih, List.length_cons, pow_succ, mul_comm]

theorem value_replicate_false (n : Nat) : value (List.replicate n false) = 0 := by
  induction n with
  | zero => rfl
  | succ n ih => rw [List.replicate_succ, value, ih, Bool.toNat_false]

theorem testBit_value (ds : List Bool) (i : Nat) : (value ds).testBit i = ds.getD i false := by
  induction ds generalizing i with
  | nil => simp [value]
  | cons d ds ih =>
    cases i with
    | zero => cases d <;> simp [value, Nat.testBit_zero]
    | succ i =>
      have hhalf : value (d :: ds) / 2 = value ds := by
        have := d.toNat_le
        rw [value]
        omega
      rw [Nat.testBit_succ, hhalf, ih, List.getD_cons_succ]

theorem mem_positions :
    i ∈ positions k ds ↔ ∃ j, i = k + j ∧ ds.getD j false = true := by
  induction ds generalizing k with
  | nil => simp [positions]
  | cons d ds ih =>
    have htail : i ∈ positions (k + 1) ds ↔
        ∃ j, i = k + (j + 1) ∧ (d :: ds).getD (j + 1) false = true := by
      rw [ih]
      refine exists_congr ?_
      intro j
      rw [List.getD_cons_succ, Nat.add_right_comm, Nat.add_assoc]
    have hsplit : (∃ j, i = k + j ∧ (d :: ds).getD j false = true) ↔
        i = k ∧ d = true ∨ i ∈ positions (k + 1) ds := by
      rw [htail]
      constructor
      · rintro ⟨_ | j, hi, hj⟩
        · exact Or.inl ⟨hi, hj⟩
        · exact Or.inr ⟨j, hi, hj⟩
      · rintro (⟨hi, hd⟩ | ⟨j, hi, hj⟩)
        · exact ⟨0, hi, hd⟩
        · exact ⟨j + 1, hi, hj⟩
    rw [hsplit]
    cases d <;> simp [positions]

/-- The subset that the counter stands for. -/
theorem ofList_positions (ds : List Bool) :
    VertexSet.ofList (positions 0 ds) = VertexSet.ofNumber ds.length (value ds) := by
  rw [← VertexSet.toSet_inj]
  ext i
  rw [VertexSet.mem_toSet, VertexSet.mem_toSet, VertexSet.contains_ofList,
    VertexSet.contains_ofNumber, mem_positions, testBit_value]
  refine and_congr_left ?_
  intro _
  constructor
  · rintro ⟨j, rfl, hj⟩
    rw [Nat.zero_add]
    refine ⟨?_, hj⟩
    by_contra hlen
    rw [List.getD_eq_default _ _ (Nat.le_of_not_lt hlen)] at hj
    exact Bool.false_ne_true hj
  · rintro ⟨-, hi⟩
    exact ⟨i, (Nat.zero_add i).symm, hi⟩

theorem value_of_increment_none (h : increment? ds = none) : value ds + 1 = capacity ds := by
  induction ds with
  | nil => rfl
  | cons d ds ih =>
    cases d with
    | false => cases h
    | true =>
      have := ih (Option.map_eq_none_iff.mp h)
      simp only [value, capacity, Bool.toNat_true]
      omega

/-! ## Counting up -/

/-- One call gives the subset with the number of the counter, and counts up by one. -/
theorem next?_eq_some (h : s.next? = some (x, t)) :
    x = VertexSet.ofNumber s.digits.length (value s.digits) ∧
      t.digits.length = s.digits.length ∧ s.remaining = t.remaining + 1 ∧
      (t.remaining ≠ 0 → value t.digits = value s.digits + 1) := by
  have hlt := value_lt s.digits
  unfold next? at h
  split at h
  · cases h
  · rename_i hdone
    split at h
    · rename_i es hes
      cases h
      obtain ⟨hlen, hval⟩ := value_increment hes
      have hlt' := value_lt es
      have hcap := capacity_congr hlen
      refine ⟨ofList_positions _, hlen, ?_, fun _ => hval⟩
      simp only [remaining, hdone, if_false, Bool.false_eq_true]
      omega
    · rename_i hnone
      cases h
      have hlast := value_of_increment_none hnone
      refine ⟨ofList_positions _, rfl, ?_, fun hrem => ?_⟩
      · simp only [remaining, hdone, if_false, if_true, Bool.false_eq_true]
        omega
      · exact absurd rfl hrem

theorem remaining_of_next?_none (h : s.next? = none) : s.remaining = 0 := by
  unfold next? at h
  split at h
  · rename_i hdone
    simp [remaining, hdone]
  · split at h <;> cases h

/-- The subsets still to come. -/
def toList (s : Subsets) : List VertexSet :=
  match _ : s.next? with
  | none => []
  | some (x, rest) => x :: toList rest
termination_by s.remaining
decreasing_by exact remaining_next ‹_›

theorem toList_of_none (h : s.next? = none) : s.toList = [] := by
  rw [toList]
  split
  · rfl
  · rename_i hsome
    rw [h] at hsome
    cases hsome

theorem toList_of_some (h : s.next? = some (x, t)) : s.toList = x :: t.toList := by
  rw [toList]
  split
  · rename_i hnone
    rw [h] at hnone
    cases hnone
  · rename_i hsome
    rw [h] at hsome
    cases hsome
    rfl

theorem toList_eq (s : Subsets) :
    s.toList = (List.range' (value s.digits) s.remaining).map
      (VertexSet.ofNumber s.digits.length) := by
  fun_induction toList s with
  | case1 s h =>
    rw [remaining_of_next?_none h]
    rfl
  | case2 s x t h ih =>
    obtain ⟨rfl, hlen, hrem, hval⟩ := next?_eq_some h
    rw [hrem, List.range'_succ, List.map_cons, ih, hlen]
    congr 1
    by_cases hzero : t.remaining = 0
    · rw [hzero]
      rfl
    · rw [hval hzero]

/-- The subset number `k` is the one of the binary digits of `k`. -/
theorem toList_ofSize (n : Nat) :
    (ofSize n).toList = (List.range (2 ^ n)).map (VertexSet.ofNumber n) := by
  rw [toList_eq, List.range_eq_range']
  simp only [ofSize, remaining, value_replicate_false, capacity_eq, List.length_replicate,
    Bool.false_eq_true, if_false, Nat.sub_zero]

theorem lt_of_mem_toList_ofSize (hx : x ∈ (ofSize n).toList) (hi : x.contains i = true) :
    i < n := by
  rw [toList_ofSize] at hx
  obtain ⟨k, -, rfl⟩ := List.mem_map.mp hx
  exact (VertexSet.contains_ofNumber.mp hi).1.1

open Classical in
/-- Every set of ids below `n` comes up. -/
theorem exists_mem_toList_ofSize (hn : n ≤ VertexSet.idLimit) {S : Set VertexId}
    (hS : ∀ i ∈ S, i < n) : ∃ x ∈ (ofSize n).toList, x.toSet = S := by
  let ds := (List.range n).map fun i => decide (i ∈ S)
  have hlen : ds.length = n := by simp [ds]
  have hdigit : ∀ i < n, ds.getD i false = decide (i ∈ S) := by
    intro i hi
    simp [ds, hi]
  have hlt : value ds < 2 ^ n := by
    rw [← hlen, ← capacity_eq]
    exact value_lt ds
  refine ⟨VertexSet.ofNumber n (value ds), ?_, ?_⟩
  · rw [toList_ofSize]
    exact List.mem_map.mpr ⟨value ds, List.mem_range.mpr hlt, rfl⟩
  · ext i
    rw [VertexSet.mem_toSet, VertexSet.contains_ofNumber, testBit_value]
    constructor
    · rintro ⟨⟨hi, hbit⟩, -⟩
      rw [hdigit i hi] at hbit
      exact of_decide_eq_true hbit
    · intro hi
      have hin := hS i hi
      exact ⟨⟨hin, by rw [hdigit i hin]; exact decide_eq_true hi⟩, Nat.lt_of_lt_of_le hin hn⟩

end Subsets

end GraphLogic
