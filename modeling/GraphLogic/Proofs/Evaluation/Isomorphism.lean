import GraphLogic.Proofs.Evaluation.Outcome
import GraphLogic.Proofs.Graph.Isomorphism

/-!
# Isomorphic graphs have the same outcomes

**Theorem (`run_isomorphic`).** What becomes of a source text does not tell isomorphic graphs
apart. In particular names and orders have no influence, and equal graphs have the same outcomes.

Evaluation visits vertices and sets in the order of the ids, so on two isomorphic graphs it takes
different ways. What it finds out, though, is whether the formula is satisfied, and that is a matter
of what edges join: the permutation of the ids behind the isomorphism carries each value of a
variable to a value with which the body is just as true (`satisfied_move`).
-/

namespace GraphLogic

namespace Valuation

/-- The valuation with all ids moved by the permutation. -/
def move (π : Equiv.Perm VertexId) (ν : Valuation) : Valuation where
  element x := π (ν.element x)
  set X := π '' ν.set X

variable {π : Equiv.Perm VertexId} {ν : Valuation} {g h : Graph}

theorem move_withElement (π : Equiv.Perm VertexId) (ν : Valuation) (x : String) (i : VertexId) :
    (ν.withElement x i).move π = (ν.move π).withElement x (π i) := by
  unfold move withElement
  congr 1
  funext y
  exact Function.apply_update (fun _ => π) ν.element x i y

theorem move_withSet (π : Equiv.Perm VertexId) (ν : Valuation) (X : String) (S : Set VertexId) :
    (ν.withSet X S).move π = (ν.move π).withSet X (π '' S) := by
  unfold move withSet
  congr 1
  funext Y
  exact Function.apply_update (fun _ => (π '' ·)) ν.set X S Y

theorem agrees_move (x y : Variable) : (ν.move π).Agrees x y ↔ ν.Agrees x y := by
  obtain ⟨sx, x⟩ := x
  obtain ⟨sy, y⟩ := y
  cases sx <;> cases sy
  · exact π.injective.eq_iff
  · exact Iff.rfl
  · exact Iff.rfl
  · exact π.injective.image_injective.eq_iff

theorem relates_move {σ : Type} (hjoined : ∀ i j, h.Joined (π i) (π j) ↔ g.Joined i j)
    (r : Relation) (xs : List (Placed σ Variable)) :
    (ν.move π).Relates h r xs ↔ ν.Relates g r xs := by
  unfold Relates
  split
  · exact hjoined _ _
  · exact π.injective.mem_set_image
  · exact Iff.rfl

end Valuation

variable {g h : Graph} {ρ : Vertex → Vertex} {π : Equiv.Perm VertexId} {source : String}

/-- Sets of vertices are moved to sets of vertices. -/
theorem image_lt_iff (hcount : ∀ i, π i < h.vertexCount ↔ i < g.vertexCount) (S : Set VertexId) :
    (∀ j ∈ π '' S, j < h.vertexCount) ↔ ∀ i ∈ S, i < g.vertexCount := by
  rw [Set.forall_mem_image]
  exact forall₂_congr fun i _ => hcount i

/-- **Moved values satisfy the same formulas.** -/
theorem Formula.satisfied_move {σ : Type} (hcount : ∀ i, π i < h.vertexCount ↔ i < g.vertexCount)
    (hjoined : ∀ i j, h.Joined (π i) (π j) ↔ g.Joined i j) (φ : Formula σ) (ν : Valuation) :
    φ.Satisfied h (ν.move π) ↔ φ.Satisfied g ν := by
  induction φ generalizing ν with
  | quantified p q x φ ih =>
    obtain ⟨pq, q⟩ := q
    obtain ⟨px, ⟨sort, name⟩⟩ := x
    cases sort with
    | element =>
      have hbody : ∀ i, φ.Satisfied g (ν.withElement name i) ↔
          φ.Satisfied h ((ν.move π).withElement name (π i)) := by
        intro i
        rw [← Valuation.move_withElement]
        exact (ih _).symm
      cases q with
      | existential =>
        exact (π.exists_congr fun i => and_congr (hcount i).symm (hbody i)).symm
      | universal =>
        exact (π.forall_congr fun i => imp_congr (hcount i).symm (hbody i)).symm
    | set =>
      have hbody : ∀ S, φ.Satisfied g (ν.withSet name S) ↔
          φ.Satisfied h ((ν.move π).withSet name (π '' S)) := by
        intro S
        rw [← Valuation.move_withSet]
        exact (ih _).symm
      have hbound := image_lt_iff hcount
      cases q with
      | existential =>
        exact ((Equiv.Set.congr π).exists_congr
          fun S => and_congr (hbound S).symm (hbody S)).symm
      | universal =>
        exact ((Equiv.Set.congr π).forall_congr
          fun S => imp_congr (hbound S).symm (hbody S)).symm
  | binary p c φ ψ ihφ ihψ => exact satisfied_binary_congr rfl (ihφ ν) (ihψ ν)
  | negation p sign φ ih => exact not_congr (ih ν)
  | comparison p o x y =>
    obtain ⟨po, o⟩ := o
    cases o with
    | equal => exact Valuation.agrees_move x.value y.value
    | unequal => exact not_congr (Valuation.agrees_move x.value y.value)
  | relation p r xs => exact Valuation.relates_move hjoined r.value xs

/-- The verdict on a valid formula is the same on isomorphic graphs. -/
theorem result_eq_of_isomorphism {φ : Formula Span} {o o' : Outcome} (hg : g.WellFormed)
    (hh : h.WellFormed) (hgsize : g.vertexCount ≤ VertexSet.idLimit)
    (hhsize : h.vertexCount ≤ VertexSet.idLimit) (hρ : g.Isomorphism h ρ)
    (hφ : parse source = .ok φ) (hvalid : φ.analyze.valid = true) (ho : run source g = .ok o)
    (ho' : run source h = .ok o') : o.result = o'.result := by
  obtain ⟨π, hπ⟩ := hρ.exists_perm hg hh
  let ν : Valuation := Assignment.valuation {}
  obtain ⟨_, b, hrun, hb, htruth⟩ := run_decides hg hgsize hφ hvalid ν
  obtain ⟨_, b', hrun', hb', htruth'⟩ := run_decides hh hhsize hφ hvalid (ν.move π)
  cases ho.symm.trans hrun
  cases ho'.symm.trans hrun'
  have hmove : φ.bare.Satisfied h (ν.move π) ↔ φ.bare.Satisfied g ν :=
    φ.bare.satisfied_move hπ.lt_vertexCount_iff (hπ.joined_iff hg hh hρ) ν
  rw [hb, hb', Bool.eq_iff_iff.mpr (htruth.trans (hmove.symm.trans htruth'.symm))]

theorem run_eq_of_isomorphism (hg : g.WellFormed) (hh : h.WellFormed)
    (hgsize : g.vertexCount ≤ VertexSet.idLimit) (hhsize : h.vertexCount ≤ VertexSet.idLimit)
    (hρ : g.Isomorphism h ρ) : run source g = run source h := by
  cases hφ : parse source with
  | error f => rw [run_of_parse_error hφ, run_of_parse_error hφ]
  | ok φ =>
    obtain ⟨o, ho, hformula, hanalysis, hanswer⟩ := run_of_parse_ok hφ g
    obtain ⟨o', ho', hformula', hanalysis', hanswer'⟩ := run_of_parse_ok hφ h
    have hresult : o.result = o'.result := by
      by_cases herrors : φ.analyze.errors = []
      · have hvalid := (valid_iff_errors φ {}).mpr herrors
        exact result_eq_of_isomorphism hg hh hgsize hhsize hρ hφ hvalid ho ho'
      · rcases hanswer with ⟨hnone, -⟩ | ⟨-, hanswer⟩
        · exact absurd hnone herrors
        rcases hanswer' with ⟨hnone, -⟩ | ⟨-, hanswer'⟩
        · exact absurd hnone herrors
        rw [hanswer, hanswer']
    have houtcome : o = o' := by
      obtain ⟨ψ, a, r⟩ := o
      obtain ⟨ψ', a', r'⟩ := o'
      rw [Outcome.mk.injEq]
      exact ⟨hformula.trans hformula'.symm, hanalysis.trans hanalysis'.symm, hresult⟩
    rw [ho, ho', houtcome]

/-- **Isomorphic graphs have the same outcomes.** For every source text and every two graphs that
can be made, and whose ids can all be stored: if some renaming of the vertices keeps adjacency, or
if the graphs are equal, then a run on the one is a run on the other, with the same failure or the
same analysis and the same result. -/
theorem run_isomorphic (source : String) {g h : Graph} (hg : g.Reachable) (hh : h.Reachable)
    (hgsize : g.vertexCount ≤ VertexSet.idLimit) (hhsize : h.vertexCount ≤ VertexSet.idLimit) :
    (∀ ρ, g.Isomorphism h ρ → run source g = run source h) ∧
      ((g == h) = true → run source g = run source h) := by
  have hiso : ∀ ρ, g.Isomorphism h ρ → run source g = run source h := fun ρ hρ =>
    run_eq_of_isomorphism hg.wellFormed hh.wellFormed hgsize hhsize hρ
  refine ⟨hiso, fun hequal => ?_⟩
  exact hiso id (Graph.isomorphism_of_beq hg.wellFormed hh.wellFormed hequal)

/-- The path `a`–`b`–`c`, and the same path with other names, vertices and edges in another order
and one edge in the other direction. -/
theorem run_isomorphic_paths :
    let a : Vertex := ⟨"a"⟩
    let b : Vertex := ⟨"b"⟩
    let c : Vertex := ⟨"c"⟩
    let x : Vertex := ⟨"x"⟩
    let y : Vertex := ⟨"y"⟩
    let z : Vertex := ⟨"z"⟩
    let changes : List Graph.Change :=
      [.addVertex a, .addVertex b, .addVertex c, .addEdge a b, .addEdge b c]
    let changes' : List Graph.Change :=
      [.addVertex y, .addVertex z, .addVertex x, .addEdge y z, .addEdge y x]
    let g := changes.foldl Graph.change {}
    let h := changes'.foldl Graph.change {}
    let ρ : Vertex → Vertex := fun v => if v = a then x else if v = b then y else z
    g.Isomorphism h ρ ∧ ∀ source, run source g = run source h := by
  intro a b c x y z changes changes' g h ρ
  have hg : g.Reachable := Graph.Reachable.empty.changes changes
  have hh : h.Reachable := Graph.Reachable.empty.changes changes'
  have hgcount : g.vertexCount = 3 := by decide
  have hhcount : h.vertexCount = 3 := by decide
  have hρ : g.Isomorphism h ρ := by
    have hmaps : ∀ v ∈ g.vertices, ρ v ∈ h.vertices := by decide
    have hinj : ∀ v ∈ g.vertices, ∀ w ∈ g.vertices, ρ v = ρ w → v = w := by decide
    have hsurj : ∀ w ∈ h.vertices, ∃ v ∈ g.vertices, ρ v = w := by decide
    exact ⟨⟨hmaps, fun v hv w hw => hinj v hv w hw, hsurj⟩, by decide⟩
  refine ⟨hρ, fun source => ?_⟩
  have hsize : ∀ k : Graph, k.vertexCount = 3 → k.vertexCount ≤ VertexSet.idLimit := by
    intro k hk
    rw [hk]
    decide
  exact (run_isomorphic source hg hh (hsize g hgcount) (hsize h hhcount)).1 ρ hρ

end GraphLogic
