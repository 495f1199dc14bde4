import GraphLogic.Graph.Component
import GraphLogic.Proofs.Graph.WellFormed
import Mathlib.Data.List.Basic
import Mathlib.Logic.Relation

/-!
# Paths

**Theorem (`mem_unreached_iff`).** Breadth-first search finds what paths lead to: if no edge leads
out of the queue and the fresh ids, then a fresh id is left over exactly when no path leads to it
from the queue.

**Theorem (`isConnected_iff`).** So a graph is connected exactly when paths join all of its
vertices.

The search moves ids from the fresh ones to the queue. What it moves is adjacent to the head of the
queue, so a path leads there (`exists_linked`); and when the head leaves the queue, none of its
neighbours is fresh any more (`not_adjacent_unreached`), so no path leads out of what was moved.
-/

namespace GraphLogic.Graph

variable {g : Graph} {i j k : VertexId} {queue fresh : List VertexId}

/-! ## Paths -/

/-- A path leads from `i` to `j`. -/
def Linked (g : Graph) : VertexId → VertexId → Prop :=
  Relation.ReflTransGen fun i j => g.adjacent i j = true

namespace Linked

theorem refl (i : VertexId) : g.Linked i i := Relation.ReflTransGen.refl

theorem head (hij : g.adjacent i j = true) (hjk : g.Linked j k) : g.Linked i k :=
  Relation.ReflTransGen.head hij hjk

theorem tail (hij : g.Linked i j) (hjk : g.adjacent j k = true) : g.Linked i k :=
  Relation.ReflTransGen.tail hij hjk

theorem trans (hij : g.Linked i j) (hjk : g.Linked j k) : g.Linked i k :=
  Relation.ReflTransGen.trans hij hjk

theorem symm (hg : g.WellFormed) (h : g.Linked i j) : g.Linked j i := by
  induction h with
  | refl => exact .refl i
  | @tail k l _ hkl ih => exact .head (hg.adjacent_comm k l ▸ hkl) ih

/-- A path does not leave a set that no edge leaves. -/
theorem mem {S : Set VertexId} (hS : ∀ k l, k ∈ S → g.adjacent k l = true → l ∈ S)
    (h : g.Linked i j) (hi : i ∈ S) : j ∈ S := by
  induction h with
  | refl => exact hi
  | tail _ hkl ih => exact hS _ _ ih hkl

end Linked

/-! ## Searching -/

theorem unreached_sublist (g : Graph) (queue fresh : List VertexId) :
    (g.unreached queue fresh).Sublist fresh := by
  fun_induction unreached g queue fresh with
  | case1 fresh => exact List.Sublist.refl fresh
  | case2 fresh i queue split ih =>
    refine ih.trans ?_
    rw [show split = g.splitAdjacent i fresh from rfl, splitAdjacent_eq]
    exact List.filter_sublist

/-- What the search takes out of the fresh ids is at the end of a path from the queue. -/
theorem exists_linked (hfresh : j ∈ fresh) (hreached : j ∉ g.unreached queue fresh) :
    ∃ i ∈ queue, g.Linked i j := by
  fun_induction unreached g queue fresh with
  | case1 fresh => exact absurd hfresh hreached
  | case2 fresh i queue split ih =>
    rw [show split = g.splitAdjacent i fresh from rfl, splitAdjacent_eq] at ih hreached
    by_cases hij : g.adjacent i j = true
    · exact ⟨i, List.mem_cons_self, .head hij (.refl j)⟩
    · have hrest : j ∈ fresh.filter fun j => !g.adjacent i j := by simp [hfresh, hij]
      obtain ⟨k, hk, hkj⟩ := ih hrest hreached
      rcases List.mem_append.mp hk with hk | hk
      · exact ⟨k, List.mem_cons_of_mem _ hk, hkj⟩
      · exact ⟨i, List.mem_cons_self, .head (List.mem_filter.mp hk).2 hkj⟩

/-- No edge leads from the queue, or from what the search takes out, to what it leaves. -/
theorem not_adjacent_unreached
    (hk : k ∈ queue ∨ k ∈ fresh ∧ k ∉ g.unreached queue fresh)
    (hj : j ∈ g.unreached queue fresh) : g.adjacent k j = false := by
  fun_induction unreached g queue fresh with
  | case1 fresh =>
    rcases hk with hk | ⟨hk, hreached⟩
    · cases hk
    · exact absurd hk hreached
  | case2 fresh i queue split ih =>
    have hsub := (g.unreached_sublist (queue ++ split.1) split.2).subset hj
    rw [show split = g.splitAdjacent i fresh from rfl, splitAdjacent_eq] at ih hk hj hsub
    have hij : g.adjacent i j = false := by simpa using (List.mem_filter.mp hsub).2
    rcases hk with hk | ⟨hk, hreached⟩
    · rcases List.mem_cons.mp hk with rfl | hk
      · exact hij
      · exact ih (Or.inl (List.mem_append_left _ hk)) hj
    · by_cases hik : g.adjacent i k = true
      · have hk' : k ∈ fresh.filter (g.adjacent i) := List.mem_filter.mpr ⟨hk, hik⟩
        exact ih (Or.inl (List.mem_append_right _ hk')) hj
      · have hk' : k ∈ fresh.filter fun j => !g.adjacent i j := by simp [hk, hik]
        exact ih (Or.inr ⟨hk', hreached⟩) hj

/-- **Searching finds what paths lead to.** -/
theorem mem_unreached_iff (hdisjoint : ∀ k ∈ queue, k ∉ fresh)
    (hclosed : ∀ k l, k ∈ queue ∨ k ∈ fresh → g.adjacent k l = true → l ∈ queue ∨ l ∈ fresh) :
    j ∈ g.unreached queue fresh ↔ j ∈ fresh ∧ ∀ i ∈ queue, ¬ g.Linked i j := by
  have hsub := (g.unreached_sublist queue fresh).subset
  constructor
  · intro hj
    refine ⟨hsub hj, fun i hi hij => ?_⟩
    -- The queue and what was taken out of the fresh ids: no edge leaves them.
    let S : Set VertexId := {k | k ∈ queue ∨ k ∈ fresh ∧ k ∉ g.unreached queue fresh}
    have hS : ∀ k l, k ∈ S → g.adjacent k l = true → l ∈ S := by
      intro k l hk hkl
      rcases hclosed k l (hk.imp_right And.left) hkl with hl | hl
      · exact Or.inl hl
      · refine Or.inr ⟨hl, fun hleft => ?_⟩
        rw [not_adjacent_unreached hk hleft] at hkl
        cases hkl
    rcases hij.mem hS (Or.inl hi) with hjqueue | ⟨-, hreached⟩
    · exact hdisjoint j hjqueue (hsub hj)
    · exact hreached hj
  · rintro ⟨hj, hnone⟩
    by_contra hreached
    obtain ⟨i, hi, hij⟩ := exists_linked hj hreached
    exact hnone i hi hij

/-! ## Connected graphs -/

theorem countComponents_eq_zero_iff : g.countComponents fresh = 0 ↔ fresh = [] := by
  cases fresh with
  | nil => simp [countComponents]
  | cons i fresh => simp [countComponents]

theorem countComponents_cons_le_one :
    g.countComponents (i :: fresh) ≤ 1 ↔ g.unreached [i] fresh = [] := by
  have hzero : g.countComponents (g.unreached [i] fresh) = 0 ↔ g.unreached [i] fresh = [] :=
    countComponents_eq_zero_iff
  rw [← hzero, countComponents]
  omega

/-- **A graph is connected when paths join all of its vertices.** -/
theorem isConnected_iff (hg : g.WellFormed) :
    g.isConnected = true ↔ ∀ i < g.vertexCount, ∀ j < g.vertexCount, g.Linked i j := by
  rw [isConnected, decide_eq_true_eq, componentCount]
  cases hn : g.vertexCount with
  | zero => simp [countComponents]
  | succ n =>
    have hmem : ∀ k, k = 0 ∨ k ∈ (List.range n).map Nat.succ ↔ k < g.vertexCount := by
      intro k
      rw [← List.mem_cons, ← List.range_succ_eq_map, List.mem_range, hn]
    have hleft : ∀ j, j ∈ g.unreached [0] ((List.range n).map Nat.succ) ↔
        j ∈ (List.range n).map Nat.succ ∧ ¬ g.Linked 0 j := by
      intro j
      rw [mem_unreached_iff (by simp)]
      · simp
      · intro k l _ hkl
        rw [List.mem_singleton, hmem]
        exact (adjacent_lt hkl).2
    rw [List.range_succ_eq_map, countComponents_cons_le_one, List.eq_nil_iff_forall_not_mem]
    constructor
    · intro hnone
      have hzero : ∀ j < g.vertexCount, g.Linked 0 j := by
        intro j hj
        rcases (hmem j).mpr hj with rfl | hj
        · exact .refl 0
        · by_contra hlinked
          exact hnone j ((hleft j).mpr ⟨hj, hlinked⟩)
      intro i hi j hj
      rw [← hn] at hi hj
      exact ((hzero i hi).symm hg).trans (hzero j hj)
    · intro hall j hj
      obtain ⟨hj, hlinked⟩ := (hleft j).mp hj
      have hlt := (hmem j).mp (Or.inr hj)
      exact hlinked (hall 0 (Nat.succ_pos n) j (hn ▸ hlt))

end GraphLogic.Graph
