import GraphLogic.Proofs.Evaluation.Outcome
import GraphLogic.Proofs.Graph.Path

/-!
# Connectedness as a formula

**Theorem (`run_connectedness`).** The formula `∀u∀v∀X((X(u)∧∀y∀z((X(y)∧E(y,z))→X(z)))→X(v))`
evaluates to what the search for components finds out: whether the graph is connected.

The formula says that every set that contains `u` and that no edge leaves contains `v`
(`connectedness_satisfied_iff`). Such a set contains all that paths lead to from `u`, and what they
lead to is itself such a set (`linked_iff_mem_closed`).
-/

namespace GraphLogic

/-- `∀u∀v∀X((X(u)∧∀y∀z((X(y)∧E(y,z))→X(z)))→X(v))` -/
def connectedness : Formula Unit :=
  let u : Placed Unit Variable := ⟨(), ⟨.element, "u"⟩⟩
  let v : Placed Unit Variable := ⟨(), ⟨.element, "v"⟩⟩
  let y : Placed Unit Variable := ⟨(), ⟨.element, "y"⟩⟩
  let z : Placed Unit Variable := ⟨(), ⟨.element, "z"⟩⟩
  let X : Placed Unit Variable := ⟨(), ⟨.set, "X"⟩⟩
  let forAll (x : Placed Unit Variable) (φ : Formula Unit) := .quantified () ⟨(), .universal⟩ x φ
  let isIn (x : Placed Unit Variable) : Formula Unit := .relation () ⟨(), .set "X"⟩ [x]
  let closed : Formula Unit := forAll y <| forAll z <| .binary () ⟨(), .implies⟩
    (.binary () ⟨(), .and⟩ (isIn y) (.relation () ⟨(), .edge⟩ [y, z])) (isIn z)
  forAll u <| forAll v <| forAll X <| .binary () ⟨(), .implies⟩
    (.binary () ⟨(), .and⟩ (isIn u) closed) (isIn v)

theorem parse_connectedness :
    (parse "∀u∀v∀X((X(u)∧∀y∀z((X(y)∧E(y,z))→X(z)))→X(v))").toOption.map
      (fun φ => (φ.bare, φ.analyze.valid)) = some (connectedness, true) := by
  decide +kernel

variable {g : Graph}

/-- No edge leads out of the set. -/
def Graph.Closed (g : Graph) (S : Set VertexId) : Prop :=
  ∀ k < g.vertexCount, ∀ l < g.vertexCount, k ∈ S ∧ g.Joined k l → l ∈ S

/-- What the formula says, in the words of sets of ids. -/
theorem connectedness_satisfied_iff (ν : Valuation) :
    connectedness.Satisfied g ν ↔
      ∀ i < g.vertexCount, ∀ j < g.vertexCount, ∀ S : Set VertexId, (∀ k ∈ S, k < g.vertexCount) →
        i ∈ S ∧ g.Closed S → j ∈ S := by
  simp [connectedness, Formula.Satisfied, Valuation.Relates, Valuation.withElement,
    Valuation.withSet, Function.update, Graph.Closed]

/-- A path leads from `i` to `j` just when every closed set with `i` in it has `j` in it. -/
theorem linked_iff_mem_closed (hg : g.WellFormed) {i j : VertexId} (hi : i < g.vertexCount) :
    g.Linked i j ↔
      ∀ S : Set VertexId, (∀ k ∈ S, k < g.vertexCount) → i ∈ S ∧ g.Closed S → j ∈ S := by
  constructor
  · rintro hij S - ⟨hiS, hS⟩
    refine hij.mem (fun k l hk hkl => ?_) hiS
    obtain ⟨hlt, hlt'⟩ := Graph.adjacent_lt hkl
    exact hS k hlt l hlt' ⟨hk, (adjacent_iff_joined hg).mp hkl⟩
  · intro h
    let S : Set VertexId := {k | k < g.vertexCount ∧ g.Linked i k}
    have hclosed : g.Closed S := by
      rintro k - l hl ⟨⟨-, hik⟩, hkl⟩
      exact ⟨hl, hik.tail ((adjacent_iff_joined hg).mpr hkl)⟩
    exact (h S (fun k hk => hk.1) ⟨⟨hi, .refl i⟩, hclosed⟩).2

/-- **Connectedness is a formula.** In a graph that can be made, and whose ids can all be stored,
the formula evaluates to what the search for components answers. -/
theorem run_connectedness (hg : g.Reachable) (hsize : g.vertexCount ≤ VertexSet.idLimit) :
    ∃ o, run "∀u∀v∀X((X(u)∧∀y∀z((X(y)∧E(y,z))→X(z)))→X(v))" g = .ok o ∧
      o.result = some g.isConnected := by
  have hread := parse_connectedness
  cases hφ : parse "∀u∀v∀X((X(u)∧∀y∀z((X(y)∧E(y,z))→X(z)))→X(v))" with
  | error f =>
    rw [hφ] at hread
    cases hread
  | ok φ =>
    rw [hφ] at hread
    obtain ⟨hbare, hvalid⟩ := Prod.mk.inj (Option.some_inj.mp hread)
    obtain ⟨o, b, ho, hresult, htruth⟩ :=
      run_decides hg.wellFormed hsize hφ hvalid (Assignment.valuation {})
    refine ⟨o, ho, hresult.trans (congrArg some ?_)⟩
    rw [Bool.eq_iff_iff, htruth, hbare, connectedness_satisfied_iff,
      Graph.isConnected_iff hg.wellFormed]
    refine forall₂_congr fun i hi => forall₂_congr fun j _ => ?_
    exact (linked_iff_mem_closed hg.wellFormed hi).symm

/-- The edge `a`–`b` beside the vertex `c` is not connected. -/
theorem run_connectedness_apart :
    let changes : List Graph.Change :=
      [.addVertex ⟨"a"⟩, .addVertex ⟨"b"⟩, .addVertex ⟨"c"⟩, .addEdge ⟨"a"⟩ ⟨"b"⟩]
    let g := changes.foldl Graph.change {}
    ∃ o, run "∀u∀v∀X((X(u)∧∀y∀z((X(y)∧E(y,z))→X(z)))→X(v))" g = .ok o ∧
      o.result = some false := by
  intro changes g
  have hg : g.Reachable := Graph.Reachable.empty.changes changes
  have hcount : g.vertexCount = 3 := by decide
  have hsize : g.vertexCount ≤ VertexSet.idLimit := by
    rw [hcount]
    decide
  have hapart : g.isConnected = false := by decide +kernel
  rw [← hapart]
  exact run_connectedness hg hsize

end GraphLogic
