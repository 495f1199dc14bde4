import GraphLogic.Graph.Search
import GraphLogic.Proofs.Graph.Component
import GraphLogic.Proofs.Graph.Reachable

/-!
# The search with marks finds components

**Theorem (`Reachable.components_counted`).** In every graph that can be made, a search with marks
ends within as many rounds as there are vertices, and marks what paths lead to from its start; and
as many searches are started as there are classes of vertices that are joined by paths.

The vertices without a mark (`unmarked`) are the fresh ids of the search in `Graph.unreached`, and
one round does the same in both (`round_queue`, `unmarked_round`). So the results are the same
(`unmarked_finish`), and what is known of paths there holds here.
-/

namespace GraphLogic.Graph

variable {n : Nat} {g : Graph}

namespace Search

/-! ## Marks and fresh ids -/

/-- The ids without a mark, in their order. -/
def unmarked (marked : Vector Bool n) : List VertexId :=
  ((List.finRange n).filter fun j => !marked.get j).map Fin.val

theorem mem_unmarked_iff {marked : Vector Bool n} {j : Fin n} :
    j.val ∈ unmarked marked ↔ marked.get j = false := by
  unfold unmarked
  rw [List.mem_map_of_injective Fin.val_injective, List.mem_filter, Bool.not_eq_true']
  exact and_iff_right (List.mem_finRange j)

theorem unmarked_nodup (marked : Vector Bool n) : (unmarked marked).Nodup :=
  ((List.nodup_finRange n).filter _).map Fin.val_injective

/-- The fresh ids that pass a test. -/
theorem filter_unmarked (p : VertexId → Bool) (marked : Vector Bool n) :
    (unmarked marked).filter p =
      ((List.finRange n).filter fun j : Fin n => !marked.get j && p j).map Fin.val := by
  rw [unmarked, List.filter_map, List.filter_filter]
  exact congrArg _ (List.filter_congr fun j _ => Bool.and_comm ..)

theorem get_set (marked : Vector Bool n) (j k : Fin n) :
    (marked.set j true).get k = (marked.get k || decide (k = j)) := by
  show (marked.set j true)[k.val] = (marked[k.val] || decide (k = j))
  rw [Vector.getElem_set]
  by_cases hkj : k = j
  · simp [hkj]
  · rw [if_neg fun h => hkj (Fin.ext h.symm), decide_eq_false hkj, Bool.or_false]

theorem unmarked_set (marked : Vector Bool n) (i : Fin n) :
    unmarked (marked.set i true) = (unmarked marked).erase i := by
  rw [(unmarked_nodup marked).erase_eq_filter, filter_unmarked, unmarked]
  refine congrArg _ (List.filter_congr fun j _ => ?_)
  simp only [get_set, Bool.not_or, Fin.ext_iff]
  rfl

/-! ## One round -/

variable {i : Fin g.vertexCount} {s : Search g.vertexCount} {queue js : List (Fin g.vertexCount)}

theorem look_marked (i : Fin g.vertexCount) (s : Search g.vertexCount)
    (j k : Fin g.vertexCount) :
    (look g i s j).marked.get k = (s.marked.get k || (decide (k = j) && g.adjacent i k)) := by
  unfold look
  by_cases hkj : k = j
  · subst hkj
    cases hm : s.marked.get k <;> cases ha : g.adjacent i k <;>
      simp [get_set, hm]
  · split <;> simp [get_set, hkj]

theorem foldl_look_marked (js : List (Fin g.vertexCount)) (s : Search g.vertexCount)
    (k : Fin g.vertexCount) :
    (js.foldl (look g i) s).marked.get k =
      (s.marked.get k || (decide (k ∈ js) && g.adjacent i k)) := by
  induction js generalizing s with
  | nil => simp
  | cons j js ih =>
    rw [List.foldl_cons, ih, look_marked]
    by_cases hkj : k = j <;> cases g.adjacent i k <;> simp [hkj]

/-- No vertex is gone through twice, so each is looked at with the mark that it has at first. -/
theorem foldl_look_queue (hjs : js.Nodup) (s : Search g.vertexCount) :
    (js.foldl (look g i) s).queue =
      s.queue ++ js.filter fun j : Fin g.vertexCount => !s.marked.get j && g.adjacent i j := by
  induction js generalizing s with
  | nil => simp
  | cons j js ih =>
    obtain ⟨hj, hjs⟩ := List.nodup_cons.mp hjs
    have hrest : js.filter (fun k : Fin g.vertexCount =>
          !(look g i s j).marked.get k && g.adjacent i k) =
        js.filter fun k : Fin g.vertexCount => !s.marked.get k && g.adjacent i k := by
      refine List.filter_congr fun k hk => ?_
      have hne : k ≠ j := fun h => hj (h ▸ hk)
      rw [look_marked, decide_eq_false hne, Bool.false_and, Bool.or_false]
    rw [List.foldl_cons, ih hjs, hrest, List.filter_cons]
    unfold look
    split <;> simp

theorem round_of_nil (h : s.queue = []) : round g s = s := by
  unfold round
  rw [h]

theorem round_of_cons (h : s.queue = i :: queue) :
    round g s = (List.finRange g.vertexCount).foldl (look g i) { s with queue } := by
  unfold round
  rw [h]

theorem round_marked (h : s.queue = i :: queue) (k : Fin g.vertexCount) :
    (round g s).marked.get k = (s.marked.get k || g.adjacent i k) := by
  rw [round_of_cons h, foldl_look_marked, decide_eq_true (List.mem_finRange k), Bool.true_and]

/-- What joins the queue are the fresh ids that are adjacent to its head. -/
theorem round_queue (h : s.queue = i :: queue) :
    (round g s).queue.map Fin.val =
      queue.map Fin.val ++ (g.splitAdjacent i (unmarked s.marked)).1 := by
  rw [round_of_cons h, foldl_look_queue (List.nodup_finRange _), List.map_append,
    splitAdjacent_eq, filter_unmarked]

theorem unmarked_round (h : s.queue = i :: queue) :
    unmarked (round g s).marked = (g.splitAdjacent i (unmarked s.marked)).2 := by
  simp only [splitAdjacent_eq, filter_unmarked]
  refine congrArg _ (List.filter_congr fun k _ => ?_)
  rw [round_marked h, Bool.not_or]

/-! ## All rounds -/

theorem finish_of_nil (h : s.queue = []) : finish g s = s.marked := by
  rw [finish]
  split
  · rfl
  · rename_i hcons
    rw [h] at hcons
    cases hcons

theorem finish_of_cons (h : s.queue = i :: queue) : finish g s = finish g (round g s) := by
  rw [finish]
  split
  · rename_i hnil
    rw [h] at hnil
    cases hnil
  · rfl

/-- Where there are enough of them, rounds empty the queue. -/
theorem iterate_round {k : Nat} (hk : s.pending ≤ k) : (round g)^[k] s = ⟨[], finish g s⟩ := by
  induction k generalizing s with
  | zero =>
    have hqueue : s.queue = [] := List.eq_nil_of_length_eq_zero (by unfold pending at hk; omega)
    rw [finish_of_nil hqueue, ← hqueue]
    rfl
  | succ k ih =>
    cases hqueue : s.queue with
    | nil =>
      rw [Function.iterate_fixed (round_of_nil hqueue), finish_of_nil hqueue, ← hqueue]
    | cons i queue =>
      have := pending_round hqueue
      rw [Function.iterate_succ_apply, finish_of_cons hqueue]
      exact ih (by omega)

/-- The search with marks leaves without a mark what the search through fresh ids leaves. -/
theorem unmarked_finish (s : Search g.vertexCount) :
    unmarked (finish g s) = g.unreached (s.queue.map Fin.val) (unmarked s.marked) := by
  fun_induction finish g s with
  | case1 s h =>
    rw [h, List.map_nil, unreached]
  | case2 s i queue h ih =>
    rw [ih, round_queue h, unmarked_round h, h, List.map_cons, unreached]

/-! ## A search from a vertex -/

variable {start : Fin g.vertexCount} {marked : Vector Bool g.vertexCount}

theorem pending_startAt_le (start : Fin g.vertexCount) (marked : Vector Bool g.vertexCount) :
    (startAt g start marked).pending ≤ g.vertexCount := by
  have hstart : true ∈ marked.set start true := Vector.mem_of_getElem (Vector.getElem_set_self _)
  have hcount : (marked.set start true).count false < g.vertexCount := by
    refine Nat.lt_of_le_of_ne Vector.count_le_size fun hall => ?_
    exact Bool.false_ne_true (Vector.count_eq_size.mp hall true hstart)
  show 1 + (marked.set start true).count false ≤ g.vertexCount
  omega

theorem unmarked_mark (start : Fin g.vertexCount) (marked : Vector Bool g.vertexCount) :
    unmarked (mark g start marked) =
      g.unreached [start.val] ((unmarked marked).erase start) := by
  rw [← unmarked_set]
  exact unmarked_finish _

/-- Marks stay, and the start of the search gets one. -/
theorem of_mark_eq_false {k : Fin g.vertexCount} (h : (mark g start marked).get k = false) :
    marked.get k = false ∧ k ≠ start := by
  rw [← mem_unmarked_iff, unmarked_mark] at h
  have hk := (g.unreached_sublist _ _).subset h
  rw [(unmarked_nodup marked).mem_erase_iff, mem_unmarked_iff] at hk
  exact ⟨hk.2, fun heq => hk.1 (congrArg Fin.val heq)⟩

/-- **What is marked.** Behind the marks of whole components, a search marks what paths lead to
from its start. -/
theorem mark_iff (hg : g.WellFormed) (hstart : marked.get start = false)
    (hwhole : ∀ i j : Fin g.vertexCount, marked.get i = true → g.Linked i j → marked.get j = true)
    (j : Fin g.vertexCount) :
    (mark g start marked).get j = true ↔ marked.get j = true ∨ g.Linked start j := by
  have hfresh : start.val ∈ unmarked marked := mem_unmarked_iff.mpr hstart
  have hperm : ∀ k, k ∈ start.val :: (unmarked marked).erase start ↔ k ∈ unmarked marked :=
    fun k => (List.perm_cons_erase hfresh).mem_iff.symm
  have hclosed : g.ClosedUnder (start.val :: (unmarked marked).erase start) := by
    intro k l hk hkl
    obtain ⟨hk', hl'⟩ := adjacent_lt hkl
    rw [hperm] at hk ⊢
    have hback : g.Linked l k := .head (hg.adjacent_comm k l ▸ hkl) (.refl k)
    have hkmark : marked.get ⟨k, hk'⟩ = false := mem_unmarked_iff.mp hk
    refine mem_unmarked_iff (j := ⟨l, hl'⟩).mpr (Bool.eq_false_iff.mpr fun hl => ?_)
    rw [hwhole ⟨l, hl'⟩ ⟨k, hk'⟩ hl hback] at hkmark
    cases hkmark
  have hleft : (mark g start marked).get j = false ↔ marked.get j = false ∧ ¬ g.Linked start j := by
    rw [← mem_unmarked_iff, unmarked_mark,
      mem_unreached_singleton_iff hclosed (unmarked_nodup marked).not_mem_erase,
      (unmarked_nodup marked).mem_erase_iff, mem_unmarked_iff]
    constructor
    · rintro ⟨⟨-, hj⟩, hlinked⟩
      exact ⟨hj, hlinked⟩
    · rintro ⟨hj, hlinked⟩
      refine ⟨⟨fun heq => ?_, hj⟩, hlinked⟩
      rw [heq] at hlinked
      exact hlinked (.refl start.val)
  rw [← Bool.not_eq_false, hleft, not_and_or, Bool.not_eq_false, not_not]

/-! ## Search after search -/

variable {done : List (Fin g.vertexCount)}

/-- Where all vertices before `js` are marked, those without a mark are in `js`. -/
theorem unmarked_eq_filter (hsplit : done ++ js = List.finRange g.vertexCount)
    (hdone : ∀ k ∈ done, marked.get k = true) :
    unmarked marked = (js.filter fun k => !marked.get k).map Fin.val := by
  have hnone : done.filter (fun k => !marked.get k) = [] :=
    List.filter_eq_nil_iff.mpr fun k hk => by simp [hdone k hk]
  rw [unmarked, ← hsplit, List.filter_append, hnone, List.nil_append]

theorem foldl_advance (hsplit : done ++ js = List.finRange g.vertexCount)
    (hdone : ∀ k ∈ done, marked.get k = true) (count : Nat) :
    (js.foldl (advance g) (count, marked)).1 = count + g.countComponents (unmarked marked) := by
  induction js generalizing done count marked with
  | nil =>
    rw [unmarked_eq_filter hsplit hdone]
    show count = count + g.countComponents []
    rw [countComponents, Nat.add_zero]
  | cons j js ih =>
    have hsplit' : (done ++ [j]) ++ js = List.finRange g.vertexCount := by
      rw [List.append_assoc, List.singleton_append, hsplit]
    have hfresh := unmarked_eq_filter hsplit hdone
    rw [List.foldl_cons, advance]
    by_cases hj : marked.get j = true
    · rw [if_pos hj]
      refine ih hsplit' (fun k hk => ?_) count
      rcases List.mem_append.mp hk with hk | hk
      · exact hdone k hk
      · rwa [List.mem_singleton.mp hk]
    · rw [if_neg hj]
      -- The first vertex without a mark starts a search, in both ways to count.
      have hcons : unmarked marked = j.val :: (unmarked marked).erase j := by
        rw [hfresh, List.filter_cons_of_pos (by simpa using hj), List.map_cons,
          List.erase_cons_head]
      have hcount : g.countComponents (unmarked marked) =
          1 + g.countComponents (unmarked (mark g j marked)) := by
        rw [unmarked_mark, hcons, countComponents, List.erase_cons_head]
      rw [hcount, ← Nat.add_assoc]
      refine ih hsplit' (fun k hk => ?_) (count + 1)
      rw [← Bool.not_eq_false]
      intro hk'
      obtain ⟨hk₀, hne⟩ := of_mark_eq_false hk'
      rcases List.mem_append.mp hk with hk | hk
      · rw [hdone k hk] at hk₀
        cases hk₀
      · exact hne (List.mem_singleton.mp hk)

/-- **Counting searches counts components.** -/
theorem countSearches_eq (g : Graph) : countSearches g = g.componentCount := by
  have hfresh : unmarked (Vector.replicate g.vertexCount false) = List.range g.vertexCount := by
    have hnone : ∀ j, (Vector.replicate g.vertexCount false).get j = false :=
      fun j => Vector.getElem_replicate j.isLt
    simp [unmarked, hnone]
  have hsplit : [] ++ List.finRange g.vertexCount = List.finRange g.vertexCount :=
    List.nil_append _
  have hloop := foldl_advance hsplit
    (List.forall_mem_nil fun k => (Vector.replicate g.vertexCount false).get k = true) 0
  rwa [hfresh, Nat.zero_add] at hloop

end Search

/-- **Components.** In every graph that can be made, a search from any vertex, behind any marks, has
an empty queue after as many rounds as there are vertices; behind the marks of whole components it
marks what paths lead to from its start. So the searches that it takes to mark all vertices are as
many as the classes of vertices that paths join, and there is at most one just when paths join
every two vertices. -/
theorem Reachable.components_counted (hg : g.Reachable) :
    (∀ (start : Fin g.vertexCount) (marked : Vector Bool g.vertexCount),
      (Search.round g)^[g.vertexCount] (Search.startAt g start marked) =
        ⟨[], Search.mark g start marked⟩) ∧
    (∀ (start : Fin g.vertexCount) (marked : Vector Bool g.vertexCount), marked.get start = false →
      (∀ i j : Fin g.vertexCount, marked.get i = true → g.Linked i j → marked.get j = true) →
      ∀ j : Fin g.vertexCount,
        (Search.mark g start marked).get j = true ↔ marked.get j = true ∨ g.Linked start j) ∧
    Search.countSearches g = g.componentCount ∧
    g.componentCount = Nat.card (Quotient hg.wellFormed.linked) ∧
    (g.isConnected = true ↔ ∀ i < g.vertexCount, ∀ j < g.vertexCount, g.Linked i j) := by
  refine ⟨fun start marked => ?_, fun start marked hstart hwhole => ?_, ?_, ?_, ?_⟩
  · exact Search.iterate_round (Search.pending_startAt_le start marked)
  · exact Search.mark_iff hg.wellFormed hstart hwhole
  · exact Search.countSearches_eq g
  · exact componentCount_eq_card hg.wellFormed
  · exact isConnected_iff hg.wellFormed

/-- A path of three vertices beside an edge has two components. -/
theorem Reachable.components_counted_two :
    let changes : List Change := [.addVertex ⟨"a"⟩, .addVertex ⟨"b"⟩, .addVertex ⟨"c"⟩,
      .addVertex ⟨"d"⟩, .addVertex ⟨"e"⟩, .addEdge ⟨"a"⟩ ⟨"d"⟩, .addEdge ⟨"d"⟩ ⟨"c"⟩,
      .addEdge ⟨"e"⟩ ⟨"b"⟩]
    let g := changes.foldl Graph.change {}
    ∃ hg : g.Reachable, Nat.card (Quotient hg.wellFormed.linked) = 2 ∧
      Search.countSearches g = 2 ∧ g.isConnected = false := by
  intro changes g
  have hg : g.Reachable := Reachable.empty.changes changes
  have hcount : g.componentCount = 2 := by decide +kernel
  have hapart : g.isConnected = false := by decide +kernel
  obtain ⟨-, -, hsearches, hclasses, -⟩ := Reachable.components_counted hg
  exact ⟨hg, hclasses ▸ hcount, hsearches.trans hcount, hapart⟩

end GraphLogic.Graph
