import GraphLogic.Graph.Component

/-!
# The search with marks

The search for components as it is carried out. Vertices that were reached are marked, and marks
are kept from one component to the next. In every round the head leaves the queue, and all vertices
are gone through: those that are not marked yet and adjacent to it are marked and join the queue.
-/

namespace GraphLogic.Graph

/-- A search among `n` vertices. -/
structure Search (n : Nat) where
  /-- The reached vertices whose neighbours were not looked for yet. -/
  queue : List (Fin n)
  /-- Which vertices were reached, in this search or before. -/
  marked : Vector Bool n

namespace Search

/-- The number of rounds to come at most: each vertex of the queue takes one, and each vertex
without a mark may still join the queue. -/
def pending {n : Nat} (s : Search n) : Nat := s.queue.length + s.marked.count false

variable (g : Graph)

/-- Marks `j` and puts it into the queue, if it is a neighbour of `i` without a mark. -/
def look (i : Fin g.vertexCount) (s : Search g.vertexCount) (j : Fin g.vertexCount) :
    Search g.vertexCount :=
  if !s.marked.get j && g.adjacent i j then ⟨s.queue ++ [j], s.marked.set j true⟩ else s

/-- Looks for the neighbours of the head of the queue, if there is one. -/
def round (s : Search g.vertexCount) : Search g.vertexCount :=
  match s.queue with
  | [] => s
  | i :: queue => (List.finRange g.vertexCount).foldl (look g i) { s with queue }

variable {g}

theorem pending_look (i : Fin g.vertexCount) (s : Search g.vertexCount)
    (j : Fin g.vertexCount) : (look g i s j).pending = s.pending := by
  unfold look
  split
  · rename_i h
    have hj : s.marked.get j = false := by
      cases hm : s.marked.get j
      · rfl
      · simp [hm] at h
    have hcount : 0 < s.marked.count false :=
      Vector.count_pos_iff.mpr (hj ▸ Vector.getElem_mem j.isLt)
    have hset : (s.marked.set j true).count false = s.marked.count false - 1 := by
      rw [Vector.count_set j.isLt]
      simp [show s.marked[j.val] = false from hj]
    simp only [pending, List.length_append, List.length_singleton, hset]
    omega
  · rfl

theorem pending_round {i : Fin g.vertexCount} {queue : List (Fin g.vertexCount)}
    {s : Search g.vertexCount} (h : s.queue = i :: queue) :
    (round g s).pending + 1 = s.pending := by
  have hloop : ∀ (js : List (Fin g.vertexCount)) (t : Search g.vertexCount),
      (js.foldl (look g i) t).pending = t.pending := by
    intro js
    induction js with
    | nil => exact fun _ => rfl
    | cons j js ih => exact fun t => (ih _).trans (pending_look i t j)
  unfold round
  rw [h]
  show (List.foldl (look g i) _ _).pending + 1 = _
  rw [hloop, pending, pending, h, List.length_cons]
  exact Nat.add_right_comm ..

variable (g)

/-- The marks when the queue is empty. -/
def finish (s : Search g.vertexCount) : Vector Bool g.vertexCount :=
  match _ : s.queue with
  | [] => s.marked
  | _ :: _ => finish (round g s)
termination_by s.pending
decreasing_by
  have := pending_round ‹_›
  omega

/-- The search from `start`, behind the marks that are there. -/
def startAt (start : Fin g.vertexCount) (marked : Vector Bool g.vertexCount) :
    Search g.vertexCount :=
  ⟨[start], marked.set start true⟩

/-- The marks with those of the search from `start`. -/
def mark (start : Fin g.vertexCount) (marked : Vector Bool g.vertexCount) :
    Vector Bool g.vertexCount :=
  finish g (startAt g start marked)

/-- Starts a search from `start`, unless it was reached by one before. -/
def advance (r : Nat × Vector Bool g.vertexCount) (start : Fin g.vertexCount) :
    Nat × Vector Bool g.vertexCount :=
  if r.2.get start then r else (r.1 + 1, mark g start r.2)

/-- The number of searches that it takes to mark all vertices. -/
def countSearches : Nat :=
  ((List.finRange g.vertexCount).foldl (advance g) (0, Vector.replicate g.vertexCount false)).1

end Search

end GraphLogic.Graph
