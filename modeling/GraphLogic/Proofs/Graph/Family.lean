import GraphLogic.Proofs.Graph.Complement
import GraphLogic.Proofs.Graph.Parts

/-!
# Families of graphs

**Theorem (`families_built`).** Every graph of a family has just the vertices and edges that its
name promises, whatever its size.

The families are made by adding vertices and edges one after the other, and a refusal would go
unnoticed. None is refused, as the lists are admissible: numbers have different labels
(`numbered_injective`), which no label with a prime is (`numbered_ne_primed`), and no pair of
numbers is gone through twice. So each family is what its lists make, and everything else is read
off the lists.
-/

namespace GraphLogic

/-- A number can be read back from its digits. -/
theorem toString_injective : Function.Injective (toString : Nat → String) := by
  intro i j h
  have hdigits : Nat.toDigits 10 i = Nat.toDigits 10 j := by
    rw [← Nat.toList_repr, ← Nat.toList_repr]
    exact congrArg String.toList h
  have hread := congrArg (fun digits => Nat.ofDigitChars 10 digits 0) hdigits
  simpa only [Nat.ofDigitChars_toDigits (by decide : 1 < 10) (by decide)] using hread

namespace Vertex

theorem numbered_injective : Function.Injective numbered := fun _ _ h =>
  toString_injective (Vertex.mk.inj h)

theorem primed_injective : Function.Injective primed := fun _ _ h =>
  toString_injective ((String.append_left_inj _).mp (Vertex.mk.inj h))

/-- A prime is no digit. -/
theorem numbered_ne_primed (i j : Nat) : numbered i ≠ primed j := by
  intro h
  have hlabel : toString i = toString j ++ "'" := Vertex.mk.inj h
  have hprime : '\'' ∈ (toString i).toList := by
    rw [hlabel, String.toList_append]
    exact List.mem_append_right _ (List.mem_singleton_self _)
  have hdigit : '\''.isDigit = true :=
    Nat.isDigit_of_mem_toDigits (by decide) (by decide) (Nat.toList_repr ▸ hprime)
  exact absurd hdigit (by decide)

end Vertex

namespace Graph

open Vertex

variable {g : Graph} {a b v w : Vertex} {i j m n : Nat}

/-! ## The lists of the families -/

/-- The vertices `1` to `n`. -/
def numbers (n : Nat) : List Vertex := (List.range' 1 n).map numbered

/-- The vertices `1'` to `n'`. -/
def primes (n : Nat) : List Vertex := (List.range' 1 n).map .primed

/-- Each number up to `n` with the next. -/
def steps (n : Nat) : List (Vertex × Vertex) :=
  (List.range' 1 (n - 1)).map fun i => (numbered i, numbered (i + 1))

/-- The steps up to `n`, and the way back from the last number to the first. -/
def circuit (n : Nat) : List (Vertex × Vertex) := steps n ++ [(numbered 1, numbered n)]

theorem mem_range'_one : i ∈ List.range' 1 n ↔ 1 ≤ i ∧ i ≤ n := by
  rw [List.mem_range'_1]
  omega

theorem numbered_mem_numbers : numbered i ∈ numbers n ↔ 1 ≤ i ∧ i ≤ n := by
  unfold numbers
  rw [List.mem_map_of_injective numbered_injective, mem_range'_one]

theorem exists_of_mem_numbers (hv : v ∈ numbers n) : ∃ i, (1 ≤ i ∧ i ≤ n) ∧ v = numbered i := by
  obtain ⟨i, hi, rfl⟩ := List.mem_map.mp hv
  exact ⟨i, mem_range'_one.mp hi, rfl⟩

theorem length_numbers (n : Nat) : (numbers n).length = n := by
  rw [numbers, List.length_map, List.length_range']

theorem length_primes (n : Nat) : (primes n).length = n := by
  rw [primes, List.length_map, List.length_range']

theorem length_steps (n : Nat) : (steps n).length = n - 1 := by
  rw [steps, List.length_map, List.length_range']

theorem numbers_nodup (n : Nat) : (numbers n).Nodup :=
  (List.nodup_range' ..).map numbered_injective

theorem primes_nodup (n : Nat) : (primes n).Nodup :=
  (List.nodup_range' ..).map primed_injective

theorem numbers_disjoint_primes (m n : Nat) : (numbers m).Disjoint (primes n) := by
  intro v hv hv'
  obtain ⟨i, -, rfl⟩ := List.mem_map.mp hv
  obtain ⟨j, -, heq⟩ := List.mem_map.mp hv'
  exact numbered_ne_primed i j heq.symm

theorem step_mem_iff : (numbered i, numbered j) ∈ steps n ↔ 1 ≤ i ∧ j = i + 1 ∧ j ≤ n := by
  unfold steps
  rw [List.mem_map]
  constructor
  · rintro ⟨k, hk, heq⟩
    obtain ⟨hi, hj⟩ := Prod.mk.inj heq
    have := numbered_injective hi
    have := numbered_injective hj
    have := mem_range'_one.mp hk
    omega
  · rintro ⟨hi, rfl, hj⟩
    exact ⟨i, mem_range'_one.mpr (by omega), rfl⟩

/-! ## They are admissible -/

theorem admissible_steps (n : Nat) : Admissible (numbers n) (steps n) := by
  have hnumbers : Admissible (List.range' 1 n) ((List.range' 1 (n - 1)).map fun i => (i, i + 1)) :=
    { vertices_nodup := List.nodup_range' ..
      ends_ne := List.forall_mem_map.mpr fun i _ => (Nat.lt_succ_self i).ne
      ends_mem := List.forall_mem_map.mpr fun i hi => by
        simp only [mem_range'_one] at hi ⊢
        omega
      unordered_nodup := by
        unfold unordered
        rw [List.map_map]
        refine (List.nodup_range' ..).map fun i j hij => ?_
        rcases Sym2.eq_iff.mp hij with ⟨heq, -⟩ | ⟨heq, heq'⟩
        · exact heq
        · dsimp only at heq heq'
          omega }
  have hmap := hnumbers.map numbered_injective
  rwa [List.map_map] at hmap

/-- The way back is no step. -/
theorem admissible_circuit (hn : 3 ≤ n) : Admissible (numbers n) (circuit n) := by
  refine (admissible_steps n).concat ?_ ?_ ?_ ?_
  · exact numbered_mem_numbers.mpr ⟨Nat.le_refl 1, by omega⟩
  · exact numbered_mem_numbers.mpr ⟨by omega, Nat.le_refl n⟩
  · exact numbered_injective.ne (by omega)
  · rw [mem_unordered_iff, step_mem_iff, step_mem_iff]
    omega

/-- All pairs with one entry of either list describe a simple graph. -/
theorem admissible_product {α : Type} {as bs : List α} (has : as.Nodup) (hbs : bs.Nodup)
    (hdisjoint : as.Disjoint bs) : Admissible (as ++ bs) (as ×ˢ bs) where
  vertices_nodup := List.nodup_append'.mpr ⟨has, hbs, hdisjoint⟩
  ends_ne := by
    rintro ⟨a, b⟩ hp (rfl : a = b)
    obtain ⟨ha, hb⟩ := List.pair_mem_product.mp hp
    exact hdisjoint ha hb
  ends_mem := by
    rintro ⟨a, b⟩ hp
    obtain ⟨ha, hb⟩ := List.pair_mem_product.mp hp
    exact ⟨List.mem_append_left _ ha, List.mem_append_right _ hb⟩
  unordered_nodup := by
    refine (has.product hbs).map_on ?_
    rintro ⟨a, b⟩ hp ⟨c, d⟩ hq heq
    obtain ⟨ha, -⟩ := List.pair_mem_product.mp hp
    obtain ⟨-, hd⟩ := List.pair_mem_product.mp hq
    rcases Sym2.eq_iff.mp heq with ⟨rfl, rfl⟩ | ⟨rfl, -⟩
    · rfl
    · exact absurd hd (hdisjoint ha)

/-! ## What is built -/

theorem edgeless_eq (n : Nat) : edgeless n = drawn (numbers n) [] :=
  foldl_orSelf_of_foldlM (foldlM_addVertex_eq_ok_iff.mpr ⟨numbers_nodup n, rfl⟩)

theorem ofParts_edgeless (n : Nat) : ofParts (numbers n) [] = .ok (edgeless n) :=
  Admissible.ofParts_eq ((admissible_pairs (numbers_nodup n)).sublist (List.nil_sublist _))

/-- The pairs of numbers in the order in which they are gone through. -/
theorem pairs_range' (k n : Nat) :
    pairs (List.range' k n) =
      (List.range' k n).flatMap fun i => (List.range' (i + 1) (k + n - 1 - i)).map (i, ·) := by
  induction n generalizing k with
  | zero => rfl
  | succ n ih =>
    rw [List.range'_succ, pairs, List.flatMap_cons, ih]
    congr 1
    · rw [show k + (n + 1) - 1 - k = n by omega]
    · refine List.flatMap_congr fun i _ => ?_
      rw [show k + 1 + n - 1 - i = k + (n + 1) - 1 - i by omega]

theorem complete_eq (n : Nat) :
    complete n = (withVertices {} (numbers n)).withEdges (pairs (numbers n)) := by
  unfold complete numbers
  rw [pairs_map, pairs_range', List.map_flatMap]
  simp only [List.map_map, Nat.add_sub_cancel_left]
  rfl

theorem ofParts_complete (n : Nat) :
    ofParts (numbers n) (pairs (numbers n)) = .ok (complete n) := by
  rw [complete_eq]
  exact (admissible_pairs (numbers_nodup n)).ofParts_eq

theorem completeBipartite_eq (m n : Nat) :
    completeBipartite m n =
      (withVertices {} (numbers m ++ primes n)).withEdges (numbers m ×ˢ primes n) := by
  have hproduct : numbers m ×ˢ primes n = (List.range' 1 m).flatMap fun i =>
      (List.range' 1 n).map fun j => (numbered i, .primed j) := by
    show (numbers m).flatMap (fun a => (primes n).map (a, ·)) = _
    unfold numbers primes
    simp only [List.flatMap_map, List.map_map]
    rfl
  unfold completeBipartite
  rw [← hproduct, withVertices, edgeless, withVertices, ← List.foldl_append]
  rfl

theorem ofParts_completeBipartite (m n : Nat) :
    ofParts (numbers m ++ primes n) (numbers m ×ˢ primes n) = .ok (completeBipartite m n) := by
  rw [completeBipartite_eq]
  exact (admissible_product (numbers_nodup m) (primes_nodup n)
    (numbers_disjoint_primes m n)).ofParts_eq

theorem path_eq (hn : 1 ≤ n) : path n = ofParts (numbers n) (steps n) := by
  have hvertices : (numbers n).foldlM addVertex {} = .ok (edgeless n) :=
    foldlM_addVertex_eq_ok_iff.mpr ⟨numbers_nodup n, edgeless_eq n⟩
  unfold path ofParts
  rw [if_neg (Nat.not_lt.mpr hn), hvertices, steps]
  show _ = List.foldlM _ (edgeless n) _
  rw [List.foldlM_map]

theorem exists_path (hn : 1 ≤ n) :
    ∃ g, path n = .ok g ∧ ofParts (numbers n) (steps n) = .ok g := by
  rw [path_eq hn]
  exact (exists_ofParts_iff.mpr (admissible_steps n)).imp fun g hok => ⟨hok, hok⟩

theorem cycle_eq (hn : 3 ≤ n) : cycle n = ofParts (numbers n) (circuit n) := by
  unfold cycle circuit
  rw [if_neg (Nat.not_lt.mpr hn), path_eq (by omega), ofParts_concat]

theorem exists_cycle (hn : 3 ≤ n) :
    ∃ g, cycle n = .ok g ∧ ofParts (numbers n) (circuit n) = .ok g := by
  rw [cycle_eq hn]
  exact (exists_ofParts_iff.mpr (admissible_circuit hn)).imp fun g hok => ⟨hok, hok⟩

/-! ## Paths and cycles -/

theorem vertex?_eq_numbered (hvertices : g.vertices = numbers n) (hi : i < n) :
    g.vertex? i = some (numbered (i + 1)) := by
  rw [vertex?_eq, hvertices, numbers, List.getElem?_map, List.getElem?_range' hi]
  simp [Nat.add_comm]

/-- Steps from each number to the next join all numbers. -/
theorem isConnected_of_steps (hg : g.WellFormed) (hvertices : g.vertices = numbers n)
    (hsteps : ∀ i, 1 ≤ i → i < n → g.hasEdge (numbered i) (numbered (i + 1)) = true) :
    g.isConnected = true := by
  have hcount : g.vertexCount = n := by rw [vertexCount_eq, hvertices, length_numbers]
  have hfirst : ∀ i < n, g.Linked 0 i := by
    intro i hi
    induction i with
    | zero => exact .refl 0
    | succ i ih =>
      refine (ih (by omega)).tail ?_
      rw [hg.adjacent_eq_hasEdge (vertex?_eq_numbered hvertices (by omega))
        (vertex?_eq_numbered hvertices hi)]
      exact hsteps (i + 1) (by omega) hi
  rw [isConnected_iff hg, hcount]
  exact fun i hi j hj => ((hfirst i hi).symm hg).trans (hfirst j hj)

theorem componentCount_eq_one (hconnected : g.isConnected = true) (hpos : 0 < g.vertexCount) :
    g.componentCount = 1 := by
  have hle : g.componentCount ≤ 1 := of_decide_eq_true hconnected
  have hne : g.componentCount ≠ 0 := by
    rw [componentCount, ne_eq, countComponents_eq_zero_iff, List.range_eq_nil]
    omega
  omega

/-- With a single component, only a tree has one edge less than vertices. -/
theorem isAcyclic_iff_of_isConnected (hconnected : g.isConnected = true)
    (hpos : 0 < g.vertexCount) : g.isAcyclic = true ↔ g.edgeCount + 1 = g.vertexCount := by
  rw [isAcyclic, componentCount_eq_one hconnected hpos, beq_iff_eq]

theorem isConnected_of_ofParts {ps : List (Vertex × Vertex)} (hsteps : steps n ⊆ ps)
    (hok : ofParts (numbers n) ps = .ok g) : g.isConnected = true := by
  obtain ⟨hg, hvertices, -⟩ := ofParts_eq_ok_iff.mp hok
  refine isConnected_of_steps hg hvertices fun i hi hin => ?_
  rw [hasEdge_iff_of_ofParts hok]
  exact Or.inl (hsteps (step_mem_iff.mpr ⟨hi, rfl, hin⟩))

theorem isTree_path (hn : 1 ≤ n) (hok : ofParts (numbers n) (steps n) = .ok g) :
    g.isTree = true := by
  have hconnected : g.isConnected = true := isConnected_of_ofParts (List.Subset.refl _) hok
  have hcount : g.vertexCount = n := (vertexCount_of_ofParts hok).trans (length_numbers n)
  have hedges : g.edgeCount = n - 1 := (edgeCount_of_ofParts hok).trans (length_steps n)
  have hnonempty : g.isEmpty = false := by
    rw [isEmpty, List.isEmpty_eq_false_iff, ← List.length_pos_iff]
    show 0 < g.vertexCount
    omega
  have hacyclic : g.isAcyclic = true :=
    (isAcyclic_iff_of_isConnected hconnected (by omega)).mpr (by omega)
  rw [isTree, hnonempty, hconnected, hacyclic]
  rfl

/-- The number before `i` on the way around from `1` to `n`. -/
def before (n i : Nat) : Nat := if i = 1 then n else i - 1

/-- The number behind `i` on the way around from `1` to `n`. -/
def behind (n i : Nat) : Nat := if i = n then 1 else i + 1

/-- Each vertex is adjacent to the one before and to the one behind. -/
theorem hasEdge_cycle (hn : 3 ≤ n)
    (hok : ofParts (numbers n) (circuit n) = .ok g) (hi : 1 ≤ i ∧ i ≤ n) :
    g.hasEdge (numbered i) (numbered j) = true ↔ j = before n i ∨ j = behind n i := by
  rw [hasEdge_iff_of_ofParts hok, circuit, List.mem_append, List.mem_append, step_mem_iff,
    step_mem_iff, List.mem_singleton, List.mem_singleton, Prod.mk.injEq, Prod.mk.injEq,
    numbered_injective.eq_iff, numbered_injective.eq_iff, numbered_injective.eq_iff,
    numbered_injective.eq_iff]
  unfold before behind
  split_ifs <;> omega

theorem degree?_eq_two (hg : g.WellFormed) (hv : v ∈ g.vertices) (hab : a ≠ b)
    (hedges : ∀ w, g.hasEdge v w = true ↔ w = a ∨ w = b) : g.degree? v = some 2 := by
  have hperm : (across g.edges v).Perm [a, b] := by
    refine (List.perm_ext_iff_of_nodup (hg.simple.across_nodup v) (by simpa)).mpr fun w => ?_
    rw [hg.mem_across_iff_hasEdge, hedges]
    simp
  rw [degree?, hg.neighbors?_eq, if_pos hv, Option.map_some, hperm.length_eq]
  rfl

theorem degree?_cycle (hn : 3 ≤ n) (hok : ofParts (numbers n) (circuit n) = .ok g)
    (hv : v ∈ g.vertices) : g.degree? v = some 2 := by
  obtain ⟨hg, hvertices, -⟩ := ofParts_eq_ok_iff.mp hok
  obtain ⟨i, hi, rfl⟩ := exists_of_mem_numbers (hvertices ▸ hv)
  have hne : before n i ≠ behind n i := by
    unfold before behind
    split_ifs <;> omega
  refine degree?_eq_two hg hv (numbered_injective.ne hne) fun w => ?_
  constructor
  · intro hedge
    obtain ⟨j, -, rfl⟩ := exists_of_mem_numbers (hvertices ▸ (hg.mem_of_hasEdge hedge).2)
    rwa [hasEdge_cycle hn hok hi, ← numbered_injective.eq_iff,
      ← numbered_injective.eq_iff (b := behind n i)] at hedge
  · rintro (rfl | rfl)
    · exact (hasEdge_cycle hn hok hi).mpr (Or.inl rfl)
    · exact (hasEdge_cycle hn hok hi).mpr (Or.inr rfl)

theorem edgeCount_cycle (hn : 3 ≤ n) (hok : ofParts (numbers n) (circuit n) = .ok g) :
    g.edgeCount = n := by
  rw [edgeCount_of_ofParts hok, circuit, List.length_append, length_steps, List.length_singleton]
  omega

theorem isConnected_cycle (hok : ofParts (numbers n) (circuit n) = .ok g) :
    g.isConnected = true :=
  isConnected_of_ofParts (List.subset_append_left ..) hok

theorem isAcyclic_cycle (hn : 3 ≤ n) (hok : ofParts (numbers n) (circuit n) = .ok g) :
    g.isAcyclic = false := by
  have hcount : g.vertexCount = n := (vertexCount_of_ofParts hok).trans (length_numbers n)
  have hedges := edgeCount_cycle hn hok
  rw [Bool.eq_false_iff, ne_eq,
    isAcyclic_iff_of_isConnected (isConnected_cycle hok) (by omega)]
  omega

/-! ## Complements -/

theorem complement_complete (n : Nat) : (complete n).complement = edgeless n := by
  have hvertices := vertices_of_ofParts (ofParts_complete n)
  have hnone : (complete n).apart = [] := by
    unfold apart
    rw [hvertices, List.filter_eq_nil_iff]
    intro p hp
    rw [Bool.not_eq_true', Bool.not_eq_false, hasEdge_iff_of_ofParts (ofParts_complete n)]
    exact Or.inl hp
  rw [complement_eq, hnone, hvertices]
  rfl

theorem complement_edgeless (n : Nat) : (edgeless n).complement = complete n := by
  have hvertices := vertices_of_ofParts (ofParts_edgeless n)
  have hall : (edgeless n).apart = pairs (numbers n) := by
    unfold apart
    rw [hvertices, List.filter_eq_self]
    intro p _
    rw [Bool.not_eq_true', Bool.eq_false_iff, ne_eq, hasEdge_iff_of_ofParts (ofParts_edgeless n)]
    simp
  rw [complement_eq, hall, hvertices, complete_eq]

/-! ## The families -/

/-- **Families.** The graphs of all families, of every size, are made from the lists of vertices and
edges that their names promise, and no entry is refused on the way. The edgeless and the complete
graph on the numbers `1` to `n` are complements of each other; the complete graph has all
`n * (n - 1) / 2` edges. The complete bipartite graph has all edges between its two parts, and no
other. There is a path for every size but zero, and it is a tree; there is a cycle for every size
from three on, which closes the path by an edge from the first to the last vertex. It is connected,
every vertex of it has two neighbours, and it is not acyclic. -/
theorem families_built (m n : Nat) :
    (ofParts (numbers n) [] = .ok (edgeless n) ∧ (edgeless n).vertices = numbers n ∧
      (edgeless n).edges = []) ∧
    (ofParts (numbers n) (pairs (numbers n)) = .ok (complete n) ∧
      (complete n).vertices = numbers n ∧
      (∀ a ∈ numbers n, ∀ b ∈ numbers n, a ≠ b → (complete n).hasEdge a b = true) ∧
      (complete n).edgeCount = n * (n - 1) / 2) ∧
    (ofParts (numbers m ++ primes n) (numbers m ×ˢ primes n) = .ok (completeBipartite m n) ∧
      (completeBipartite m n).vertices = numbers m ++ primes n ∧ (numbers m ++ primes n).Nodup ∧
      (∀ a b, (completeBipartite m n).hasEdge a b = true ↔
        a ∈ numbers m ∧ b ∈ primes n ∨ b ∈ numbers m ∧ a ∈ primes n) ∧
      (completeBipartite m n).edgeCount = m * n) ∧
    (n < 1 → path n = .error (.tooSmall "path" 1)) ∧
    (1 ≤ n → ∃ g, path n = .ok g ∧ g.vertices = numbers n ∧ g.edges.map Edge.ends = steps n ∧
      g.isTree = true) ∧
    (n < 3 → cycle n = .error (.tooSmall "cycle" 3)) ∧
    (3 ≤ n → ∃ g, cycle n = .ok g ∧ g.vertices = numbers n ∧
      g.edges.map Edge.ends = steps n ++ [(numbered 1, numbered n)] ∧ g.edgeCount = n ∧
      (∀ v ∈ g.vertices, g.degree? v = some 2) ∧ g.isConnected = true ∧ g.isAcyclic = false) ∧
    (complete n).complement = edgeless n ∧ (edgeless n).complement = complete n := by
  refine ⟨⟨ofParts_edgeless n, ?_, ?_⟩, ⟨ofParts_complete n, ?_, ?_, ?_⟩,
    ⟨ofParts_completeBipartite m n, ?_, ?_, fun a b => ?_, ?_⟩, fun hn => ?_, fun hn => ?_,
    fun hn => ?_, fun hn => ?_, complement_complete n, complement_edgeless n⟩
  · exact vertices_of_ofParts (ofParts_edgeless n)
  · rw [edgeless_eq, edges_drawn]
  · exact vertices_of_ofParts (ofParts_complete n)
  · intro a ha b hb hab
    rw [hasEdge_iff_of_ofParts (ofParts_complete n), ← mem_unordered_iff,
      mem_unordered_pairs_iff (numbers_nodup n)]
    exact ⟨ha, hb, hab⟩
  · rw [edgeCount_of_ofParts (ofParts_complete n), length_pairs, length_numbers,
      Nat.choose_two_right]
  · exact vertices_of_ofParts (ofParts_completeBipartite m n)
  · exact (exists_ofParts_iff.mp ⟨_, ofParts_completeBipartite m n⟩).vertices_nodup
  · rw [hasEdge_iff_of_ofParts (ofParts_completeBipartite m n)]
    exact or_congr List.pair_mem_product List.pair_mem_product
  · rw [edgeCount_of_ofParts (ofParts_completeBipartite m n)]
    refine (List.length_product ..).trans ?_
    rw [length_numbers, length_primes]
  · exact if_pos hn
  · obtain ⟨g, hpath, hok⟩ := exists_path hn
    obtain ⟨-, hvertices, hedges⟩ := ofParts_eq_ok_iff.mp hok
    exact ⟨g, hpath, hvertices, hedges, isTree_path hn hok⟩
  · exact if_pos hn
  · obtain ⟨g, hcycle, hok⟩ := exists_cycle hn
    obtain ⟨-, hvertices, hedges⟩ := ofParts_eq_ok_iff.mp hok
    exact ⟨g, hcycle, hvertices, hedges, edgeCount_cycle hn hok,
      fun v hv => degree?_cycle hn hok hv, isConnected_cycle hok, isAcyclic_cycle hn hok⟩

/-- The path and the cycle on four vertices, the eight edges between two and four, and the sizes
that are too small. -/
theorem families_built_four :
    (∃ g, path 4 = .ok g ∧ g.isTree = true) ∧
    (∃ g, cycle 4 = .ok g ∧ g.degree? (numbered 1) = some 2 ∧ g.isAcyclic = false) ∧
    (completeBipartite 2 4).edgeCount = 8 ∧ path 0 = .error (.tooSmall "path" 1) ∧
    cycle 0 = .error (.tooSmall "cycle" 3) := by
  obtain ⟨-, -, ⟨-, -, -, -, hbipartite⟩, -, hpath, -, hcycle, -⟩ := families_built 2 4
  obtain ⟨-, -, -, hnopath, -, hnocycle, -⟩ := families_built 2 0
  obtain ⟨p, hp, -, -, htree⟩ := hpath (by decide)
  obtain ⟨c, hc, hvertices, -, -, hdegree, -, hcyclic⟩ := hcycle (by decide)
  have hmem : numbered 1 ∈ c.vertices := by
    rw [hvertices]
    decide
  exact ⟨⟨p, hp, htree⟩, ⟨c, hc, hdegree _ hmem, hcyclic⟩, hbipartite, hnopath (by decide),
    hnocycle (by decide)⟩

end Graph

end GraphLogic
