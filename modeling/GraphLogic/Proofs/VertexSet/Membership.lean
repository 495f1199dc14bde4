import GraphLogic.VertexSet
import Mathlib.Data.List.Sort
import Mathlib.Data.Set.Basic

/-!
# Sets of vertices by their members

Two sets of vertices are equal exactly when they have the same members (`toSet_inj`): the
ascending list of its ids is determined by the set.
-/

namespace GraphLogic.VertexSet

variable {s t : VertexSet} {i k : VertexId} {ids : List VertexId}

/-- The members, as a set of numbers. -/
def toSet (s : VertexSet) : Set VertexId := {i | s.contains i = true}

theorem contains_iff : s.contains i = true ↔ i ∈ s.ids := by
  unfold contains
  exact List.contains_iff_mem

theorem mem_toSet : i ∈ s.toSet ↔ s.contains i = true := Iff.rfl

theorem toSet_inj : s.toSet = t.toSet ↔ s = t := by
  constructor
  · intro h
    have hmem : ∀ i, i ∈ s.ids ↔ i ∈ t.ids := by
      intro i
      rw [← contains_iff, ← contains_iff]
      exact Set.ext_iff.mp h i
    have hids : s.ids = t.ids := s.ascending.eq_of_mem_iff t.ascending hmem
    cases s
    cases t
    congr
  · rintro rfl
    rfl

theorem contains_empty (i : VertexId) : empty.contains i = false := rfl

theorem contains_insert :
    (s.insert k).contains i = true ↔ i = k ∧ k < idLimit ∨ s.contains i = true := by
  unfold insert
  split
  · rename_i hk
    rw [contains_iff, contains_iff, mem_insertAscending]
    simp [hk]
  · rename_i hk
    simp [hk]

/-- Ids that cannot be stored are left out. -/
theorem contains_ofList : (ofList ids).contains i = true ↔ i ∈ ids ∧ i < idLimit := by
  unfold ofList
  induction ids with
  | nil => simp [contains_empty]
  | cons k ids ih =>
    rw [List.foldr_cons, contains_insert, ih, List.mem_cons]
    constructor
    · rintro (⟨rfl, hlt⟩ | ⟨hi, hlt⟩)
      · exact ⟨Or.inl rfl, hlt⟩
      · exact ⟨Or.inr hi, hlt⟩
    · rintro ⟨rfl | hi, hlt⟩
      · exact Or.inl ⟨rfl, hlt⟩
      · exact Or.inr ⟨hi, hlt⟩

end GraphLogic.VertexSet
