import GraphLogic.Graph.InPlace
import GraphLogic.Proofs.Graph.WellFormed
import Mathlib.Logic.Function.Iterate

/-!
# The search for a label

A label that is taken gets a prime, and another one, until it is new. `freshLabel` is what the
search finds: the label with the least number of primes that is not taken (`exists_freshLabel_eq`).
Round by round, the search goes through the labels with fewer primes and stays at this one
(`iterate_prime`); there are at most as many rounds as labels that are taken.
-/

namespace GraphLogic.Graph

variable {g : Graph} {label : String} {k n : Nat}

/-- The label with `k` primes behind it. -/
def primed (label : String) : Nat → String
  | 0 => label
  | k + 1 => primed label k ++ "'"

theorem primed_prime (label : String) (k : Nat) :
    primed (label ++ "'") k = primed label (k + 1) := by
  induction k with
  | zero => rfl
  | succ k ih => exact congrArg (· ++ "'") ih

/-- With fewer primes, the label is taken. -/
theorem exists_freshLabel_eq (taken : List String) (label : String) :
    ∃ k ≤ taken.length, freshLabel taken label = primed label k ∧
      ∀ j < k, primed label j ∈ taken := by
  fun_induction freshLabel taken label with
  | case1 taken label hmem ih =>
    obtain ⟨k, hk, hlabel, hbefore⟩ := ih
    have hlength := List.length_erase_of_mem hmem
    have hpos := List.length_pos_of_mem hmem
    refine ⟨k + 1, by omega, by rw [hlabel, primed_prime], ?_⟩
    intro j hj
    cases j with
    | zero => exact hmem
    | succ j =>
      have htaken := hbefore j (by omega)
      rw [primed_prime] at htaken
      exact List.mem_of_mem_erase htaken
  | case2 taken label hmem => exact ⟨0, Nat.zero_le _, rfl, by simp⟩

/-- **The search ends** at the first label that no vertex has. -/
theorem iterate_prime (hbefore : ∀ j < k, (⟨primed label j⟩ : Vertex) ∈ g.vertices)
    (hnew : (⟨primed label k⟩ : Vertex) ∉ g.vertices) (hn : k ≤ n) :
    g.prime^[n] label = primed label k := by
  have hround : ∀ j ≤ k, g.prime^[j] label = primed label j := by
    intro j hj
    induction j with
    | zero => rfl
    | succ j ih =>
      have hthere : g.hasVertex ⟨primed label j⟩ = true := hasVertex_iff.mpr (hbefore j hj)
      rw [Function.iterate_succ_apply', ih (by omega), prime, if_pos hthere, primed]
  have hend : g.prime (primed label k) = primed label k := by
    rw [prime, if_neg]
    rwa [hasVertex_iff]
  obtain ⟨l, rfl⟩ := Nat.exists_eq_add_of_le' hn
  rw [Function.iterate_add_apply, hround k (Nat.le_refl k), Function.iterate_fixed hend]

end GraphLogic.Graph
