import GraphLogic.Proofs.Evaluation.Outcome
import GraphLogic.Proofs.Graph.Family

/-!
# Two colours as a formula

**Theorem (`run_twoColouring`).** The formula `∃X∀x∀y(E(x,y)→(X(x)↔¬X(y)))` evaluates to whether
the graph is bipartite: whether some set of vertices has one end of every edge, and only one, in it.

**Theorem (`run_bipartite`).** So it tells which graphs of the families are bipartite, at every
size. Where they are, the set is one of the two parts, or that of the odd numbers. Around a cycle
the vertices are in the set and out of it by turns, so that the last of an odd number is where the
first is (`mem_iff_odd`), and yet adjacent to it. In a complete graph, no two of three vertices may
be on the same side.
-/

namespace GraphLogic

/-- `∃X∀x∀y(E(x,y)→(X(x)↔¬X(y)))` -/
def twoColouring : Formula Unit :=
  let x : Placed Unit Variable := ⟨(), ⟨.element, "x"⟩⟩
  let y : Placed Unit Variable := ⟨(), ⟨.element, "y"⟩⟩
  let X : Placed Unit Variable := ⟨(), ⟨.set, "X"⟩⟩
  let forAll (x : Placed Unit Variable) (φ : Formula Unit) := .quantified () ⟨(), .universal⟩ x φ
  let isIn (x : Placed Unit Variable) : Formula Unit := .relation () ⟨(), .set "X"⟩ [x]
  .quantified () ⟨(), .existential⟩ X <| forAll x <| forAll y <| .binary () ⟨(), .implies⟩
    (.relation () ⟨(), .edge⟩ [x, y]) (.binary () ⟨(), .iff⟩ (isIn x) (.negation () () (isIn y)))

theorem parse_twoColouring :
    (parse "∃X∀x∀y(E(x,y)→(X(x)↔¬X(y)))").toOption.map
      (fun φ => (φ.bare, φ.analyze.valid)) = some (twoColouring, true) := by
  decide +kernel

variable {g : Graph}

theorem twoColouring_satisfied_iff (ν : Valuation) :
    twoColouring.Satisfied g ν ↔
      ∃ S : Set VertexId, (∀ i ∈ S, i < g.vertexCount) ∧
        ∀ i < g.vertexCount, ∀ j < g.vertexCount, g.Joined i j → (i ∈ S ↔ j ∉ S) := by
  simp [twoColouring, Formula.Satisfied, Valuation.Relates, Valuation.withElement,
    Valuation.withSet, Function.update]

/-! ## Bipartite graphs -/

/-- Some set of vertices has one end of every edge in it, and only one. -/
def Graph.Bipartite (g : Graph) : Prop :=
  ∃ T : Set Vertex, ∀ a b, g.hasEdge a b = true → (a ∈ T ↔ b ∉ T)

/-- Sets of ids stand for sets of vertices. -/
theorem bipartite_iff (hg : g.WellFormed) :
    g.Bipartite ↔
      ∃ S : Set VertexId, (∀ i ∈ S, i < g.vertexCount) ∧
        ∀ i < g.vertexCount, ∀ j < g.vertexCount, g.Joined i j → (i ∈ S ↔ j ∉ S) := by
  constructor
  · rintro ⟨T, hT⟩
    let S : Set VertexId := {i | ∃ v ∈ T, g.vertex? i = some v}
    have hS : ∀ i v, g.vertex? i = some v → (i ∈ S ↔ v ∈ T) := by
      intro i v hv
      constructor
      · rintro ⟨w, hw, hiw⟩
        rwa [Option.some_inj.mp (hv.symm.trans hiw)]
      · exact fun hvT => ⟨v, hvT, hv⟩
    refine ⟨S, ?_, ?_⟩
    · rintro i ⟨v, -, hv⟩
      exact Graph.lt_vertexCount_iff.mpr ⟨v, hv⟩
    · rintro i - j - ⟨a, b, ha, hb, hedge⟩
      rw [hS i a ha, hS j b hb]
      exact hT a b (hg.hasEdge_iff.mpr hedge)
  · rintro ⟨S, -, hS⟩
    let T : Set Vertex := {v | ∃ i ∈ S, g.vertex? i = some v}
    have hT : ∀ i v, g.vertex? i = some v → (v ∈ T ↔ i ∈ S) := by
      intro i v hv
      constructor
      · rintro ⟨j, hj, hjv⟩
        rw [← hg.vertexId?_eq_some_iff] at hv hjv
        rwa [Option.some_inj.mp (hv.symm.trans hjv)]
      · exact fun hiS => ⟨i, hiS, hv⟩
    refine ⟨T, fun a b hab => ?_⟩
    obtain ⟨ha, hb⟩ := hg.mem_of_hasEdge hab
    obtain ⟨i, hi⟩ := Graph.exists_vertexId?_iff.mpr ha
    obtain ⟨j, hj⟩ := Graph.exists_vertexId?_iff.mpr hb
    rw [hg.vertexId?_eq_some_iff] at hi hj
    rw [hT i a hi, hT j b hj]
    exact hS i (Graph.lt_vertexCount_iff.mpr ⟨a, hi⟩) j (Graph.lt_vertexCount_iff.mpr ⟨b, hj⟩)
      ⟨a, b, hi, hj, hg.hasEdge_iff.mp hab⟩

/-- The formula evaluates to `b` on the graph. -/
def TwoColours (g : Graph) (b : Bool) : Prop :=
  ∃ o, run "∃X∀x∀y(E(x,y)→(X(x)↔¬X(y)))" g = .ok o ∧ o.result = some b

/-- **Two colours are a formula.** -/
theorem run_twoColouring {b : Bool} (hg : g.WellFormed)
    (hsize : g.vertexCount ≤ VertexSet.idLimit) (hb : b = true ↔ g.Bipartite) :
    TwoColours g b := by
  obtain ⟨o, c, ho, hresult, htruth⟩ :=
    run_spelled hg hsize parse_twoColouring (Assignment.valuation {})
  rw [twoColouring_satisfied_iff, ← bipartite_iff hg, ← hb] at htruth
  exact ⟨o, ho, hresult.trans (congrArg some (Bool.eq_iff_iff.mpr htruth))⟩

/-! ## Families -/

open GraphLogic.Graph Vertex

variable {vs : List Vertex} {ps : List (Vertex × Vertex)} {m n : Nat}

theorem bipartite_iff_of_ofParts (hok : ofParts vs ps = .ok g) :
    g.Bipartite ↔ ∃ T : Set Vertex, ∀ p ∈ ps, p.1 ∈ T ↔ p.2 ∉ T := by
  refine exists_congr fun T => ?_
  simp only [hasEdge_iff_of_ofParts hok]
  constructor
  · exact fun h p hp => h p.1 p.2 (Or.inl hp)
  · rintro h a b (hp | hp)
    · exact h _ hp
    · exact iff_not_comm.mp (h _ hp)

/-- The vertices with an odd number. -/
def odds : Set Vertex := {v | ∃ i, i % 2 = 1 ∧ v = numbered i}

theorem numbered_mem_odds {i : Nat} : numbered i ∈ odds ↔ i % 2 = 1 := by
  constructor
  · rintro ⟨j, hj, heq⟩
    rwa [numbered_injective heq]
  · exact fun hi => ⟨i, hi, rfl⟩

/-- Of two numbers that follow each other, one is odd. -/
theorem odds_of_mem_steps : ∀ p ∈ steps n, p.1 ∈ odds ↔ p.2 ∉ odds := by
  refine List.forall_mem_map.mpr fun i _ => ?_
  rw [numbered_mem_odds, numbered_mem_odds]
  omega

theorem bipartite_edgeless (n : Nat) : (edgeless n).Bipartite :=
  (bipartite_iff_of_ofParts (ofParts_edgeless n)).mpr ⟨∅, List.forall_mem_nil _⟩

theorem bipartite_path (hok : ofParts (numbers n) (steps n) = .ok g) : g.Bipartite :=
  (bipartite_iff_of_ofParts hok).mpr ⟨odds, odds_of_mem_steps⟩

theorem bipartite_completeBipartite (m n : Nat) : (completeBipartite m n).Bipartite := by
  refine (bipartite_iff_of_ofParts (ofParts_completeBipartite m n)).mpr
    ⟨{v | v ∈ numbers m}, fun p hp => ?_⟩
  obtain ⟨hleft, hright⟩ := List.pair_mem_product.mp hp
  exact iff_of_true hleft fun hboth => numbers_disjoint_primes m n hboth hright

/-- By turns, the numbers up to `n` are on the side of `1` and on the other. -/
theorem mem_iff_odd {T : Set Vertex} (hT : ∀ p ∈ steps n, p.1 ∈ T ↔ p.2 ∉ T) {i : Nat}
    (hi : 1 ≤ i) (hin : i ≤ n) : numbered i ∈ T ↔ (numbered 1 ∈ T ↔ i % 2 = 1) := by
  induction i, hi using Nat.le_induction with
  | base => simp
  | succ i hi ih =>
    have hstep := iff_not_comm.mp (hT _ (step_mem_iff.mpr ⟨hi, rfl, hin⟩))
    have hparity : (i + 1) % 2 = 1 ↔ ¬ i % 2 = 1 := by omega
    calc numbered (i + 1) ∈ T ↔ ¬ (numbered 1 ∈ T ↔ i % 2 = 1) :=
          hstep.trans (not_congr (ih (by omega)))
      _ ↔ (numbered 1 ∈ T ↔ (i + 1) % 2 = 1) := by
          rw [hparity]
          exact not_iff.trans (not_iff_comm.trans iff_comm)

/-- **Cycles are bipartite when they are even.** -/
theorem bipartite_cycle_iff (hn : 3 ≤ n) (hok : ofParts (numbers n) (circuit n) = .ok g) :
    g.Bipartite ↔ n % 2 = 0 := by
  rw [bipartite_iff_of_ofParts hok]
  unfold circuit
  simp only [List.forall_mem_append, List.forall_mem_singleton]
  constructor
  · rintro ⟨T, hsteps, hback⟩
    by_contra heven
    have hodd : n % 2 = 1 := by omega
    have hlast := mem_iff_odd hsteps (by omega : 1 ≤ n) (Nat.le_refl n)
    have hsame : numbered n ∈ T ↔ numbered 1 ∈ T := hlast.trans (iff_true_right hodd)
    exact iff_not_self (hsame.trans hback)
  · intro heven
    refine ⟨odds, odds_of_mem_steps, ?_⟩
    rw [numbered_mem_odds, numbered_mem_odds]
    omega

/-- **Complete graphs are bipartite when they have at most two vertices.** -/
theorem bipartite_complete_iff (n : Nat) : (complete n).Bipartite ↔ n ≤ 2 := by
  constructor
  · rintro ⟨T, hT⟩
    by_contra hn
    have hside : ∀ i j, i ≠ j → 1 ≤ i ∧ i ≤ 3 → 1 ≤ j ∧ j ≤ 3 →
        (numbered i ∈ T ↔ numbered j ∉ T) := by
      intro i j hij hi hj
      refine hT _ _ ?_
      rw [hasEdge_iff_of_ofParts (ofParts_complete n), ← mem_unordered_iff,
        mem_unordered_pairs_iff (numbers_nodup n), numbered_mem_numbers, numbered_mem_numbers]
      exact ⟨by omega, by omega, numbered_injective.ne hij⟩
    have h12 := hside 1 2 (by decide) (by decide) (by decide)
    have h23 := hside 2 3 (by decide) (by decide) (by decide)
    have h13 := hside 1 3 (by decide) (by decide) (by decide)
    exact iff_not_self (h23.trans (h13.symm.trans h12))
  · intro hn
    refine (bipartite_iff_of_ofParts (ofParts_complete n)).mpr ⟨{numbered 1}, fun p hp => ?_⟩
    have hlists := admissible_pairs (numbers_nodup n)
    obtain ⟨a, b⟩ := p
    obtain ⟨ha, hb⟩ := hlists.ends_mem _ hp
    have hab := hlists.ends_ne _ hp
    obtain ⟨i, hi, rfl⟩ := exists_of_mem_numbers ha
    obtain ⟨j, hj, rfl⟩ := exists_of_mem_numbers hb
    have hij : i ≠ j := fun heq => hab (congrArg numbered heq)
    simp only [Set.mem_singleton_iff, numbered_injective.eq_iff]
    omega

theorem twoColours_of_ofParts {b : Bool} (hok : ofParts vs ps = .ok g)
    (hsize : vs.length ≤ VertexSet.idLimit) (hb : b = true ↔ g.Bipartite) : TwoColours g b := by
  have hg : g.WellFormed := wellFormed_ofParts hok
  exact run_twoColouring hg ((vertexCount_of_ofParts hok).trans_le hsize) hb

/-- **Bipartite families.** At every size whose ids can all be stored, the formula of two colours
holds on edgeless graphs, on paths and on complete bipartite graphs; on cycles it holds just for an
even number of vertices, and on complete graphs just for at most two. -/
theorem run_bipartite :
    (∀ n ≤ VertexSet.idLimit, TwoColours (edgeless n) true) ∧
    (∀ n, 1 ≤ n → n ≤ VertexSet.idLimit → ∃ g, path n = .ok g ∧ TwoColours g true) ∧
    (∀ m n, m + n ≤ VertexSet.idLimit → TwoColours (completeBipartite m n) true) ∧
    (∀ n, 3 ≤ n → n ≤ VertexSet.idLimit →
      ∃ g, cycle n = .ok g ∧ TwoColours g (decide (n % 2 = 0))) ∧
    ∀ n ≤ VertexSet.idLimit, TwoColours (complete n) (decide (n ≤ 2)) := by
  refine ⟨fun n hsize => ?_, fun n hn hsize => ?_, fun m n hsize => ?_, fun n hn hsize => ?_,
    fun n hsize => ?_⟩
  · refine twoColours_of_ofParts (ofParts_edgeless n) (by rwa [length_numbers]) ?_
    exact iff_of_true rfl (bipartite_edgeless n)
  · obtain ⟨g, hpath, hok⟩ := exists_path hn
    refine ⟨g, hpath, twoColours_of_ofParts hok (by rwa [length_numbers]) ?_⟩
    exact iff_of_true rfl (bipartite_path hok)
  · refine twoColours_of_ofParts (ofParts_completeBipartite m n) ?_ ?_
    · rwa [List.length_append, length_numbers, length_primes]
    · exact iff_of_true rfl (bipartite_completeBipartite m n)
  · obtain ⟨g, hcycle, hok⟩ := exists_cycle hn
    refine ⟨g, hcycle, twoColours_of_ofParts hok (by rwa [length_numbers]) ?_⟩
    rw [decide_eq_true_iff, bipartite_cycle_iff hn hok]
  · refine twoColours_of_ofParts (ofParts_complete n) (by rwa [length_numbers]) ?_
    rw [decide_eq_true_iff, bipartite_complete_iff]

/-- Cycles on five and six vertices, and a triangle with and without its third vertex. -/
theorem run_bipartite_five :
    (∃ g, cycle 5 = .ok g ∧ TwoColours g false) ∧ (∃ g, cycle 6 = .ok g ∧ TwoColours g true) ∧
    (∃ g, path 1 = .ok g ∧ TwoColours g true) ∧ TwoColours (complete 3) false ∧
    TwoColours (complete 2) true ∧ TwoColours (completeBipartite 2 3) true ∧
    TwoColours (edgeless 0) true := by
  obtain ⟨hedgeless, hpath, hbipartite, hcycle, hcomplete⟩ := run_bipartite
  exact ⟨hcycle 5 (by decide) (by decide), hcycle 6 (by decide) (by decide),
    hpath 1 (by decide) (by decide), hcomplete 3 (by decide), hcomplete 2 (by decide),
    hbipartite 2 3 (by decide), hedgeless 0 (by decide)⟩

end GraphLogic
