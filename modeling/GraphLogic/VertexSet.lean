import GraphLogic.Graph

/-!
# Sets of vertices

A set of vertices is a set of ids, kept as an ascending list. Ids have 32 bits: larger ones are
never stored.
-/

namespace GraphLogic

/-- The number of ids that can be stored. -/
abbrev VertexSet.idLimit : Nat := 0x100000000

structure VertexSet where
  ids : List VertexId
  ascending : ids.Pairwise (· < ·)
  bounded : ∀ i ∈ ids, i < VertexSet.idLimit
  deriving DecidableEq, Repr

namespace VertexSet

/-! ## Insertion into an ascending list -/

/-- The ascending list `ids` with `i` at its place. -/
def insertAscending (i : VertexId) : List VertexId → List VertexId
  | [] => [i]
  | j :: ids =>
    if i < j then i :: j :: ids
    else if i = j then j :: ids
    else j :: insertAscending i ids

theorem mem_insertAscending {i k : VertexId} {ids : List VertexId} :
    k ∈ insertAscending i ids ↔ k = i ∨ k ∈ ids := by
  induction ids with
  | nil => simp [insertAscending]
  | cons j ids ih =>
    simp only [insertAscending]
    split
    · simp
    · split
      · subst_vars; simp
      · simp only [List.mem_cons, ih]
        constructor <;> rintro (h | h | h) <;> simp [h]

theorem pairwise_insertAscending {i : VertexId} {ids : List VertexId}
    (h : ids.Pairwise (· < ·)) : (insertAscending i ids).Pairwise (· < ·) := by
  induction ids with
  | nil => simp [insertAscending]
  | cons j ids ih =>
    obtain ⟨hj, hids⟩ := List.pairwise_cons.mp h
    simp only [insertAscending]
    split
    · rename_i hij
      refine List.pairwise_cons.mpr ⟨fun k hk => ?_, h⟩
      rcases List.mem_cons.mp hk with rfl | hk
      · exact hij
      · exact Nat.lt_trans hij (hj k hk)
    · split
      · exact h
      · rename_i hij hne
        have hji : j < i := Nat.lt_of_le_of_ne (Nat.le_of_not_lt hij) (Ne.symm hne)
        refine List.pairwise_cons.mpr ⟨fun k hk => ?_, ih hids⟩
        rcases mem_insertAscending.mp hk with rfl | hk
        · exact hji
        · exact hj k hk

/-! ## Sets -/

def empty : VertexSet := ⟨[], .nil, by simp⟩

instance : Inhabited VertexSet := ⟨empty⟩

def contains (s : VertexSet) (i : VertexId) : Bool := s.ids.contains i

/-- The set with `i` in it, where `i` can be stored. -/
def insert (s : VertexSet) (i : VertexId) : VertexSet :=
  if h : i < idLimit then
    ⟨insertAscending i s.ids, pairwise_insertAscending s.ascending, fun k hk => by
      rcases mem_insertAscending.mp hk with rfl | hk
      · exact h
      · exact s.bounded k hk⟩
  else s

def ofList (ids : List VertexId) : VertexSet := ids.foldr (fun i s => s.insert i) empty

def size (s : VertexSet) : Nat := s.ids.length

def isEmpty (s : VertexSet) : Bool := s.ids.isEmpty

protected def toString (s : VertexSet) : String :=
  "\x7b" ++ ", ".intercalate (s.ids.map toString) ++ "\x7d"

end VertexSet

end GraphLogic
