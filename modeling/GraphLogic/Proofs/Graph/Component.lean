import GraphLogic.Proofs.Graph.Path
import Mathlib.Data.Set.Card
import Mathlib.Data.Setoid.Basic

/-!
# Components as classes

Being joined by a path is an equivalence of the ids of a well-formed graph (`WellFormed.linked`).
Its classes are the components: what paths lead to from an id (`component`).

**Theorem (`componentCount_eq_card`).** The search for components counts the classes.

A search takes one component out of the fresh ids. What it leaves is again made up of whole
components, so that each of them is counted once (`countComponents_eq_ncard`).
-/

namespace GraphLogic.Graph

variable {g : Graph} {i j : VertexId} {fresh : List VertexId}

/-- Being joined by a path, as an equivalence of the ids. -/
def WellFormed.linked (hg : g.WellFormed) : Setoid (Fin g.vertexCount) where
  r i j := g.Linked i j
  iseqv := ⟨fun i => .refl i.val, fun h => h.symm hg, fun h h' => h.trans h'⟩

/-- What paths lead to from `i`. -/
def component (g : Graph) (i : VertexId) : Set VertexId := {j | g.Linked i j}

theorem component_eq_iff (hg : g.WellFormed) : g.component i = g.component j ↔ g.Linked i j := by
  constructor
  · intro h
    have hj : j ∈ g.component j := Linked.refl j
    rwa [← h] at hj
  · intro hij
    ext k
    exact ⟨fun hik => (hij.symm hg).trans hik, fun hjk => hij.trans hjk⟩

/-- Whole components: no edge leads out. -/
def ClosedUnder (g : Graph) (ids : List VertexId) : Prop :=
  ∀ k l, k ∈ ids → g.adjacent k l = true → l ∈ ids

theorem closedUnder_range (g : Graph) : g.ClosedUnder (List.range g.vertexCount) :=
  fun _ _ _ hkl => List.mem_range.mpr (adjacent_lt hkl).2

theorem mem_unreached_singleton_iff (hclosed : g.ClosedUnder (i :: fresh)) (hi : i ∉ fresh) :
    j ∈ g.unreached [i] fresh ↔ j ∈ fresh ∧ ¬ g.Linked i j := by
  rw [mem_unreached_iff (by simpa)]
  · simp
  · intro k l hk hkl
    have hl := hclosed k l (by simpa using hk) hkl
    simpa using hl

/-- What a search leaves is made up of whole components again. -/
theorem ClosedUnder.unreached (hg : g.WellFormed) (hclosed : g.ClosedUnder (i :: fresh))
    (hi : i ∉ fresh) : g.ClosedUnder (g.unreached [i] fresh) := by
  intro k l hk hkl
  rw [mem_unreached_singleton_iff hclosed hi] at hk ⊢
  obtain ⟨hk, hik⟩ := hk
  have hil : ¬ g.Linked i l := fun h => hik (h.tail (hg.adjacent_comm k l ▸ hkl))
  rcases List.mem_cons.mp (hclosed k l (List.mem_cons_of_mem i hk) hkl) with rfl | hl
  · exact absurd (Linked.refl l) hil
  · exact ⟨hl, hil⟩

theorem countComponents_eq_ncard (hg : g.WellFormed) (hnodup : fresh.Nodup)
    (hclosed : g.ClosedUnder fresh) :
    g.countComponents fresh = (g.component '' {j | j ∈ fresh}).ncard := by
  fun_induction countComponents g fresh with
  | case1 => simp
  | case2 i fresh ih =>
    obtain ⟨hi, hfresh⟩ := List.nodup_cons.mp hnodup
    have hleft := fun j => mem_unreached_singleton_iff (j := j) hclosed hi
    have hsub := g.unreached_sublist [i] fresh
    have himage : g.component '' {j | j ∈ i :: fresh} =
        insert (g.component i) (g.component '' {j | j ∈ g.unreached [i] fresh}) := by
      ext S
      constructor
      · rintro ⟨j, hj, rfl⟩
        by_cases hij : g.Linked i j
        · exact Or.inl ((component_eq_iff hg).mpr hij).symm
        · rcases List.mem_cons.mp hj with rfl | hj
          · exact absurd (Linked.refl j) hij
          · exact Or.inr ⟨j, (hleft j).mpr ⟨hj, hij⟩, rfl⟩
      · rintro (rfl | ⟨j, hj, rfl⟩)
        · exact ⟨i, List.mem_cons_self, rfl⟩
        · exact ⟨j, List.mem_cons_of_mem i (hsub.subset hj), rfl⟩
    have hnew : g.component i ∉ g.component '' {j | j ∈ g.unreached [i] fresh} := by
      rintro ⟨j, hj, heq⟩
      exact ((hleft j).mp hj).2 ((component_eq_iff hg).mp heq.symm)
    have hfinite : (g.component '' {j | j ∈ g.unreached [i] fresh}).Finite :=
      (List.finite_toSet _).image _
    rw [himage, Set.ncard_insert_of_notMem hnew hfinite,
      ih (hfresh.sublist hsub) (hclosed.unreached hg hi), Nat.add_comm]

/-- **Components are classes.** -/
theorem componentCount_eq_card (hg : g.WellFormed) :
    g.componentCount = Nat.card (Quotient hg.linked) := by
  let classOf : Fin g.vertexCount → Set VertexId := fun i => g.component i
  have hker : hg.linked = Setoid.ker classOf :=
    Setoid.ext fun _ _ => (component_eq_iff hg).symm
  have hrange : Set.range classOf = g.component '' {j | j ∈ List.range g.vertexCount} := by
    ext S
    constructor
    · rintro ⟨i, rfl⟩
      exact ⟨i, List.mem_range.mpr i.isLt, rfl⟩
    · rintro ⟨i, hi, rfl⟩
      exact ⟨⟨i, List.mem_range.mp hi⟩, rfl⟩
  rw [componentCount, countComponents_eq_ncard hg List.nodup_range (closedUnder_range g), hker,
    Nat.card_congr (Setoid.quotientKerEquivRange classOf), hrange, Nat.card_coe_set_eq]

end GraphLogic.Graph
