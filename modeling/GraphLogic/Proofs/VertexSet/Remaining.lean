import GraphLogic.Proofs.VertexSet.Calls

/-!
# Bounds for what is still to come

An enumeration announces how many subsets it still has to give: a lower bound and, where there is
one, an upper bound. The calls to come give the entries of a list, one each (`getElem?_toList`), so
what the bounds are about is the length of that list (`length_toList_after`).

**Theorem (`sizeHint_bounds`).** The upper bound is one. The lower bound is one for fewer than 64
ids and behind the end; for 64 ids or more it is the largest word throughout, which is too much as
soon as fewer subsets than that are left. With 64 ids that is so after two calls
(`sizeHint_exceeds`).
-/

namespace GraphLogic.Subsets

variable {n k : Nat} {s : Subsets}

/-! ## Calls to come -/

theorem after_succ (s : Subsets) (l : Nat) : s.after (l + 1) = s.call.2.after l := by
  induction l with
  | zero => rfl
  | succ l ih =>
    show (s.after (l + 1)).call.2 = (s.call.2.after l).call.2
    rw [ih]

/-- The calls to come give the subsets still to come, in their order, and then nothing. -/
theorem getElem?_toList (s : Subsets) (l : Nat) : s.toList[l]? = (s.after l).call.1 := by
  induction l generalizing s with
  | zero =>
    show s.toList[0]? = s.call.1
    rw [call_eq]
    cases h : s.next? with
    | none =>
      rw [toList_of_none h]
      rfl
    | some r =>
      rw [toList_of_some h]
      rfl
  | succ l ih =>
    rw [after_succ, ← ih, call_eq]
    cases h : s.next? with
    | none =>
      rw [toList_of_none h]
      rfl
    | some r =>
      rw [toList_of_some h]
      rfl

theorem length_toList (s : Subsets) : s.toList.length = s.remaining := by
  rw [toList_eq, List.length_map, List.length_range']

theorem length_toList_after (n k : Nat) : ((ofSize n).after k).toList.length = 2 ^ n - k := by
  rw [length_toList, remaining_after]

/-! ## Bounds -/

theorem done_after_iff : ((ofSize n).after k).done = true ↔ 2 ^ n ≤ k := by
  have h := counts_after n k
  constructor
  · intro hdone
    by_contra hk
    rw [(h.before (Nat.lt_of_not_le hk)).1] at hdone
    cases hdone
  · exact h.behind

/-- With 64 ids or more the bounds do not change until the end. -/
theorem sizeHint_after_of_le (hn : 64 ≤ n) :
    ((ofSize n).after k).sizeHint = if 2 ^ n ≤ k then (0, some 0) else (largestWord, none) := by
  have hwidth : ¬ ((ofSize n).after k).digits.length < 64 := by
    rw [(counts_after n k).width]
    omega
  simp only [sizeHint, done_after_iff, if_neg hwidth]

theorem sizeHint_after_of_lt (hn : n < 64) :
    ((ofSize n).after k).sizeHint = (2 ^ n - k, some (2 ^ n - k)) := by
  rw [sizeHint_eq ((counts_after n k).width.trans_lt hn), remaining_after]

/-- In words, the bounds are the same: no operation on the way to them overflows. -/
theorem exists_wordHint (s : Subsets) :
    ∃ w u, s.wordHint? = some (w, u) ∧ s.sizeHint = (w.toNat, u.map BitVec.toNat) := by
  by_cases hn : s.digits.length < 64
  · have hfits : s.remaining < 2 ^ 64 := by
      have hcap : capacity s.digits < 2 ^ 64 := by
        rw [capacity_eq]
        exact Nat.pow_lt_pow_right (by decide) hn
      unfold remaining
      split <;> omega
    refine ⟨_, _, wordHint?_eq hn, ?_⟩
    rw [sizeHint_eq hn, Option.map_some, BitVec.toNat_ofNat, Nat.mod_eq_of_lt hfits]
  · unfold wordHint? sizeHint
    split
    · exact ⟨_, _, rfl, rfl⟩
    · rw [if_pos (Nat.le_of_not_lt hn)]
      exact ⟨_, _, rfl, rfl⟩

/-- **Bounds.** In every state that calls lead to, the list of what is still to come holds what the
calls to come give; the bounds for its length can be computed in words; and the upper bound is one.
The lower bound is one just when there are fewer than 64 ids, or when nothing is left, or when the
largest word is not too much. -/
theorem sizeHint_bounds (n k : Nat) :
    (∀ l, (((ofSize n).after k).after l).call.1 = ((ofSize n).after k).toList[l]?) ∧
    (∃ w u, ((ofSize n).after k).wordHint? = some (w, u) ∧
      ((ofSize n).after k).sizeHint = (w.toNat, u.map BitVec.toNat)) ∧
    (∀ upper, ((ofSize n).after k).sizeHint.2 = some upper →
      ((ofSize n).after k).toList.length ≤ upper) ∧
    (((ofSize n).after k).sizeHint.1 ≤ ((ofSize n).after k).toList.length ↔
      n < 64 ∨ 2 ^ n ≤ k ∨ k + largestWord ≤ 2 ^ n) := by
  rw [length_toList_after]
  refine ⟨fun l => (getElem?_toList _ l).symm, exists_wordHint _, ?_, ?_⟩
  · intro upper hupper
    by_cases hn : n < 64
    · rw [sizeHint_after_of_lt hn] at hupper
      exact (Option.some_inj.mp hupper).le
    · rw [sizeHint_after_of_le (Nat.le_of_not_lt hn)] at hupper
      split at hupper
      · omega
      · cases hupper
  · by_cases hn : n < 64
    · rw [sizeHint_after_of_lt hn]
      exact iff_of_true (Nat.le_refl _) (Or.inl hn)
    · rw [sizeHint_after_of_le (Nat.le_of_not_lt hn)]
      split_ifs with hend
      · exact iff_of_true (Nat.zero_le _) (Or.inr (Or.inl hend))
      · show largestWord ≤ 2 ^ n - k ↔ n < 64 ∨ 2 ^ n ≤ k ∨ k + largestWord ≤ 2 ^ n
        omega

/-- After two calls the enumeration of the subsets of 64 ids announces one subset more than it has
left. -/
theorem sizeHint_exceeds :
    ((ofSize 64).after 2).sizeHint = (2 ^ 64 - 1, none) ∧
      ((ofSize 64).after 2).toList.length = 2 ^ 64 - 2 ∧
      ¬ ((ofSize 64).after 2).sizeHint.1 ≤ ((ofSize 64).after 2).toList.length := by
  have hhint : ((ofSize 64).after 2).sizeHint = (2 ^ 64 - 1, none) :=
    sizeHint_after_of_le (Nat.le_refl 64)
  have hlength := length_toList_after 64 2
  refine ⟨hhint, hlength, ?_⟩
  rw [hhint, hlength]
  decide

end GraphLogic.Subsets
