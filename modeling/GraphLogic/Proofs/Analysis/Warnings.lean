import GraphLogic.Proofs.Analysis.Sufficiency
import GraphLogic.Proofs.Analysis.Unused
import GraphLogic.Proofs.Evaluation.Coincidence
import GraphLogic.Proofs.Formula.Nodes
import GraphLogic.Proofs.Formula.Sites
import GraphLogic.Proofs.Graph.Reachable

/-!
# Warnings tell the truth

**Theorem (`warnings_true`).** Each warning about a valid formula that was read is about one node of
it, and evaluation confirms there what the warning says. On every graph that can be made, and with
any values for the variables in scope, an equation that is called always true is true; an
inequation or an adjacency that is called always false is false; and where a variable is called
unused, the body of its quantifier has one answer, whatever the variable is bound to.

Warnings come from names alone. Along the way from a valid formula without free variables to a node,
the scope around the node knows the sorts of all variables that are free in it
(`Legal.of_mem_sites`). So one name is one variable there, which has a value; and a name that is not
mentioned is not free, so that evaluation does not look at its value.
-/

namespace GraphLogic

variable {source : String} {φ m n : Formula Span} {s : Scope} {a : Assignment} {g : Graph}
  {w : Placed Span SemanticWarning} {x y : Variable} {name : String}

/-! ## The nodes and their scopes -/

namespace Formula

theorem map_node_sites {σ : Type} (φ : Formula σ) (s : Scope) :
    (φ.sites s).map (·.node) = φ.nodes := by
  induction φ generalizing s with
  | quantified p q x φ ih => exact congrArg (_ :: ·) (ih _)
  | binary p c φ ψ ihφ ihψ => simp [sites, nodes, ihφ, ihψ]
  | negation p sign φ ih => exact congrArg (_ :: ·) (ih s)
  | comparison p o x y => rfl
  | relation p r xs => rfl

/-- The formula is valid in the scope, and its free variables are there, with their sorts. -/
structure Legal (s : Scope) (φ : Formula Span) : Prop where
  valid : (φ.analyzeIn s).valid = true
  bound : ∀ x, φ.Free x → s.lookup x.name = some x.sort

theorem Legal.wellSorted (h : φ.Legal s) : φ.WellSorted := wellSorted_of_valid h.valid h.bound

/-- Every node of a legal formula is legal where it stands. -/
theorem Legal.of_mem_sites (h : φ.Legal s) {site : Site Span} (hsite : site ∈ φ.sites s) :
    site.node.Legal site.scope := by
  induction φ generalizing s with
  | quantified p q x φ ih =>
    rcases List.mem_cons.mp hsite with rfl | hsite
    · exact h
    obtain ⟨hnew, hbody⟩ := (Bool.and_eq_true _ _).mp h.valid
    refine ih ⟨hbody, ?_⟩ hsite
    intro y hy
    apply Scope.lookup_push_of_new (by simpa using hnew)
    intro hne
    exact h.bound y ⟨hne, hy⟩
  | binary p c φ ψ ihφ ihψ =>
    rcases List.mem_cons.mp hsite with rfl | hsite
    · exact h
    obtain ⟨hleft, hright⟩ := (Bool.and_eq_true _ _).mp h.valid
    rcases List.mem_append.mp hsite with hsite | hsite
    · exact ihφ ⟨hleft, fun y hy => h.bound y (Or.inl hy)⟩ hsite
    · exact ihψ ⟨hright, fun y hy => h.bound y (Or.inr hy)⟩ hsite
  | negation p sign φ ih =>
    rcases List.mem_cons.mp hsite with rfl | hsite
    · exact h
    · exact ih ⟨h.valid, h.bound⟩ hsite
  | comparison p o x y =>
    obtain rfl := List.mem_singleton.mp hsite
    exact h
  | relation p r xs =>
    obtain rfl := List.mem_singleton.mp hsite
    exact h

theorem legal_of_parse (h : parse source = .ok φ) (hvalid : φ.analyze.valid = true) :
    φ.Legal {} where
  valid := hvalid
  bound x hx := absurd hx (closed_of_valid (spelled_of_parse h) hvalid x)

end Formula

/-! ## What a warning is about, and what it says -/

/-- The warning stands where the node has its warnings: at the variable of a quantifier, at a
predicate. -/
def Formula.Bears (n : Formula Span) (w : Placed Span SemanticWarning) : Prop :=
  match w.value, n with
  | .unusedVariable _, quantified _ _ x _ => x.place = w.place
  | .alwaysTrue _, comparison p .. | .alwaysFalse _, comparison p .. => p = w.place
  | .selfLoop _, relation p .. => p = w.place
  | _, _ => False

/-- The assignment gives values to the variables in scope. -/
def Assignment.Covers (a : Assignment) (s : Scope) : Prop := ∀ x ∈ s.bound, ¬ a.Lacks x

/-- What the warning says of a node is what evaluation finds there. -/
def SemanticWarning.TrueAt (g : Graph) (a : Assignment) (n : Formula Span) :
    SemanticWarning → Prop
  | alwaysTrue _ => (n.holds g).runOn a = (.ok true, a)
  | alwaysFalse _ | selfLoop _ => (n.holds g).runOn a = (.ok false, a)
  | unusedVariable _ =>
    match n with
    | .quantified _ _ x φ => ∃ b, ∀ t, a.Binds x.value t → (φ.holds g).runOn t = (.ok b, t)
    | _ => False

/-! ## Where warnings come from -/

namespace Formula

variable {p : Span} {q : Placed Span Quantifier} {o : Placed Span Comparison}
  {r : Placed Span Relation} {u v : Placed Span Variable} {xs : List (Placed Span Variable)}

theorem unmentioned_of_ownCautions (hw : w ∈ (quantified p q u φ).ownCautions) :
    u.value.name ∉ φ.mentions ∧ w = ⟨u.place, .unusedVariable u.value.name⟩ := by
  rw [ownCautions] at hw
  split at hw
  · cases hw
  · next hunused => exact ⟨hunused, List.mem_singleton.mp hw⟩

theorem reflexive_of_ownCautions (hw : w ∈ (comparison p o u v).ownCautions) :
    u.value.name = v.value.name ∧
      (o.value = .equal ∧ w = ⟨p, .alwaysTrue u.value.name⟩ ∨
        o.value = .unequal ∧ w = ⟨p, .alwaysFalse u.value.name⟩) := by
  obtain ⟨po, o⟩ := o
  rw [ownCautions, cautions] at hw
  split at hw
  · next hname =>
    refine ⟨hname, ?_⟩
    cases o with
    | equal => exact Or.inl ⟨rfl, List.mem_singleton.mp hw⟩
    | unequal => exact Or.inr ⟨rfl, List.mem_singleton.mp hw⟩
  · cases hw

theorem loop_of_ownCautions (hw : w ∈ (relation p r xs).ownCautions) :
    r.value = .edge ∧ ∃ u v, xs = [u, v] ∧ u.value.name = v.value.name ∧
      w = ⟨p, .selfLoop u.value.name⟩ := by
  rw [ownCautions] at hw
  unfold cautions at hw
  split at hw
  · next u v hedge =>
    split at hw
    · next hname => exact ⟨hedge, u, v, rfl, hname, List.mem_singleton.mp hw⟩
    · cases hw
  · cases hw

theorem bears_of_ownCautions (hw : w ∈ n.ownCautions) : n.Bears w := by
  cases n with
  | quantified p q u φ =>
    obtain ⟨-, rfl⟩ := unmentioned_of_ownCautions hw
    rfl
  | binary p c φ ψ => cases hw
  | negation p sign φ => cases hw
  | comparison p o u v =>
    obtain ⟨-, ⟨-, rfl⟩ | ⟨-, rfl⟩⟩ := reflexive_of_ownCautions hw
    · rfl
    · rfl
  | relation p r xs =>
    obtain ⟨-, -, -, -, -, rfl⟩ := loop_of_ownCautions hw
    rfl

end Formula

theorem exists_of_mem_warnings (hw : w ∈ φ.analyze.warnings) :
    ∃ n ∈ φ.nodes, w ∈ n.ownCautions := by
  rw [Formula.analyze, warnings_analyzeIn, Formula.cautions_eq_flatMap] at hw
  obtain ⟨n, hn, hw⟩ := List.mem_flatMap.mp hw
  exact ⟨n, Formula.mem_finished.mp hn, hw⟩

/-- A warning of an unused variable stands at the node's own symbol, any other at the node. -/
theorem Formula.Bears.place_eq (h : n.Bears w) :
    (if w.value.isUnused then n.ownPlace else n.place) = w.place := by
  obtain ⟨p, w⟩ := w
  cases w with
  | unusedVariable name =>
    cases n with
    | quantified p q x φ => exact h
    | _ => exact h.elim
  | alwaysTrue name | alwaysFalse name =>
    cases n with
    | comparison p o x y => exact h
    | _ => exact h.elim
  | selfLoop name =>
    cases n with
    | relation p r xs => exact h
    | _ => exact h.elim

/-- A warning is about one node only. -/
theorem eq_of_bears (h : parse source = .ok φ) (hn : n ∈ φ.nodes) (hm : m ∈ φ.nodes)
    (hnw : n.Bears w) (hmw : m.Bears w) : n = m := by
  have hplace := hnw.place_eq.trans hmw.place_eq.symm
  by_cases hunused : w.value.isUnused = true
  · rw [if_pos hunused, if_pos hunused] at hplace
    exact eq_of_start_eq h hn hm (congrArg Span.start hplace)
  · rw [if_neg hunused, if_neg hunused] at hplace
    exact eq_of_place_eq h hn hm hplace

/-! ## One name, one variable -/

theorem Scope.mem_bound_of_lookup (h : s.lookup x.name = some x.sort) : x ∈ s.bound := by
  obtain ⟨y, hy, hsort⟩ := Option.map_eq_some_iff.mp h
  have hname : y.name = x.name := by simpa using List.find?_some hy
  rw [← Variable.eq_of hsort hname]
  exact List.mem_of_find?_eq_some hy

namespace Formula.Legal

/-- Free variables of one name are the same variable. -/
theorem eq_of_name (h : n.Legal s) (hx : n.Free x) (hy : n.Free y) (hname : x.name = y.name) :
    y = x := by
  have hsort := h.bound y hy
  rw [← hname, h.bound x hx, Option.some_inj] at hsort
  exact Variable.eq_of hsort.symm hname.symm

theorem not_lacks (h : n.Legal s) (ha : a.Covers s) (hx : n.Free x) : ¬ a.Lacks x :=
  ha x (Scope.mem_bound_of_lookup (h.bound x hx))

end Formula.Legal

theorem Formula.mem_mentions_of_free (hx : φ.Free x) : x.name ∈ φ.mentions := by
  induction φ with
  | quantified p q y φ ih => exact ih hx.2
  | binary p c φ ψ ihφ ihψ =>
    rcases hx with hx | hx
    · exact List.mem_append_left _ (ihφ hx)
    · exact List.mem_append_right _ (ihψ hx)
  | negation p sign φ ih => exact ih hx
  | comparison p o y z =>
    rcases hx with rfl | rfl
    · exact List.mem_cons_self
    · exact List.mem_cons_of_mem _ List.mem_cons_self
  | relation p r xs =>
    rcases hx with hr | ⟨y, hy, rfl⟩
    · obtain ⟨pr, r⟩ := r
      cases r with
      | edge => cases hr
      | set name =>
        cases hr
        exact List.mem_cons_self
    · exact List.mem_cons_of_mem _ (List.mem_map_of_mem hy)

/-! ## What evaluation finds -/

theorem Assignment.exists_elementValue_of_not_lacks (hx : ¬ a.Lacks ⟨.element, name⟩) :
    ∃ i, a.elementValue name = .ok i := by
  cases h : a.elementValue name with
  | ok i => exact ⟨i, rfl⟩
  | error e => exact absurd (fault_of_elementValue h).2 hx

theorem Assignment.exists_setValue_of_not_lacks (hx : ¬ a.Lacks ⟨.set, name⟩) :
    ∃ u, a.setValue name = .ok u := by
  cases h : a.setValue name with
  | ok u => exact ⟨u, rfl⟩
  | error e => exact absurd (fault_of_setValue h).2 hx

/-- A variable with a value equals itself. -/
theorem Assignment.equates_self (hx : ¬ a.Lacks x) : a.equates x x = .ok true := by
  obtain ⟨sort, name⟩ := x
  cases sort with
  | element =>
    obtain ⟨i, hi⟩ := exists_elementValue_of_not_lacks hx
    rw [equates, hi]
    exact congrArg Except.ok (beq_self_eq_true i)
  | set =>
    obtain ⟨u, hu⟩ := exists_setValue_of_not_lacks hx
    rw [equates, hu]
    exact congrArg Except.ok (beq_self_eq_true u)

/-- No vertex is its own neighbor, whatever id a variable has as its value. -/
theorem Graph.WellFormed.relates_self (hg : g.WellFormed) {u v : Placed Span Variable}
    (hv : v.value = u.value) (hu : ¬ a.Lacks u.value) (hsort : u.value.sort = .element) :
    (do a.relates g .edge (← a.argumentValues .edge [u, v])) = .ok false := by
  obtain ⟨pu, ⟨sort, name⟩⟩ := u
  obtain ⟨pv, v⟩ := v
  obtain rfl : v = ⟨sort, name⟩ := hv
  obtain rfl : sort = .element := hsort
  obtain ⟨i, hi⟩ := Assignment.exists_elementValue_of_not_lacks hu
  simp only [Assignment.argumentValues, hi]
  exact congrArg Except.ok (hg.adjacent_self i)

/-- What is bound to a variable that the body does not mention does not change its answer. -/
theorem exists_answer_of_unmentioned {p : Span} {q : Placed Span Quantifier}
    {u : Placed Span Variable} (h : (Formula.quantified p q u φ).Legal s) (ha : a.Covers s)
    (hunused : u.value.name ∉ φ.mentions) (g : Graph) :
    ∃ b, ∀ t, a.Binds u.value t → (φ.holds g).runOn t = (.ok b, t) := by
  have hnotFree : ¬ φ.Free u.value := fun hfree => hunused (Formula.mem_mentions_of_free hfree)
  have hvalues : ∀ x, φ.Free x → ¬ a.Lacks x := by
    intro x hx
    have hne : x ≠ u.value := by
      rintro rfl
      exact hnotFree hx
    exact h.not_lacks ha ⟨hne, hx⟩
  have hsorted : φ.WellSorted := h.wellSorted
  obtain ⟨b, hb⟩ := exists_verdict (g := g) hsorted hvalues
  refine ⟨b, ?_⟩
  intro t ht
  exact runOn_of_verdict ((verdict_of_binds hnotFree ht).trans hb)

/-- A warning that a legal node has by itself is true there. -/
theorem trueAt_of_ownCautions (hn : n.Legal s) (hg : g.WellFormed) (ha : a.Covers s)
    (hw : w ∈ n.ownCautions) : w.value.TrueAt g a n := by
  cases n with
  | quantified p q u φ =>
    obtain ⟨hunused, rfl⟩ := Formula.unmentioned_of_ownCautions hw
    exact exists_answer_of_unmentioned hn ha hunused g
  | binary p c φ ψ => cases hw
  | negation p sign φ => cases hw
  | comparison p o u v =>
    obtain ⟨hname, hkind⟩ := Formula.reflexive_of_ownCautions hw
    have hu := hn.not_lacks ha (Or.inl rfl)
    have hv : v.value = u.value := hn.eq_of_name (Or.inl rfl) (Or.inr rfl) hname
    obtain ⟨po, o⟩ := o
    rcases hkind with ⟨rfl, rfl⟩ | ⟨rfl, rfl⟩
    all_goals
      apply runOn_of_verdict
      rw [Formula.verdict, hv, Assignment.equates_self hu]
      rfl
  | relation p r xs =>
    obtain ⟨hedge, u, v, rfl, hname, rfl⟩ := Formula.loop_of_ownCautions hw
    have hu : (Formula.relation p r [u, v]).Free u.value := Or.inr ⟨u, List.mem_cons_self, rfl⟩
    have hv : (Formula.relation p r [u, v]).Free v.value := Or.inr ⟨v, by simp, rfl⟩
    have hsort := ((Scope.arguments_of_valid hn.valid).2.2 u List.mem_cons_self).1
    apply runOn_of_verdict
    rw [Formula.verdict, hedge]
    exact hg.relates_self (hn.eq_of_name hu hv hname) (hn.not_lacks ha hu) hsort

/-- **Warnings tell the truth.** For every text that is read as a valid formula, every graph that
can be made and all values of the variables in scope: a warning is about exactly one node, and where
it is about a node, evaluation finds what it says. -/
theorem warnings_true (h : parse source = .ok φ) (hvalid : φ.analyze.valid = true)
    (hg : g.Reachable) (hw : w ∈ φ.analyze.warnings) :
    (∃! n, n ∈ φ.nodes ∧ n.Bears w) ∧
      ∀ site ∈ φ.sites {}, site.node.Bears w →
        ∀ a : Assignment, a.Covers site.scope → w.value.TrueAt g a site.node := by
  obtain ⟨n, hn, hown⟩ := exists_of_mem_warnings hw
  have hbears := Formula.bears_of_ownCautions hown
  constructor
  · refine ⟨n, ⟨hn, hbears⟩, ?_⟩
    intro m hm
    exact eq_of_bears h hm.1 hn hm.2 hbears
  · intro site hsite hsiteBears a ha
    have hnode : site.node ∈ φ.nodes := by
      rw [← φ.map_node_sites {}]
      exact List.mem_map_of_mem hsite
    rw [← eq_of_bears h hnode hn hsiteBears hbears] at hown
    exact trueAt_of_ownCautions ((Formula.legal_of_parse h hvalid).of_mem_sites hsite)
      hg.wellFormed ha hown

/-- A sentence that is warned of in all four ways, on a graph with an edge. -/
theorem warnings_true_kinds :
    let x : Variable := ⟨.element, "x"⟩
    let y : Variable := ⟨.element, "y"⟩
    let X : Variable := ⟨.set, "X"⟩
    let equation : Formula Span :=
      .comparison ⟨11, 16⟩ ⟨⟨13, 14⟩, .equal⟩ ⟨⟨11, 12⟩, x⟩ ⟨⟨15, 16⟩, x⟩
    let loop : Formula Span := .relation ⟨19, 26⟩ ⟨⟨19, 20⟩, .edge⟩ [⟨⟨21, 22⟩, x⟩, ⟨⟨24, 25⟩, x⟩]
    let inequation : Formula Span :=
      .comparison ⟨30, 35⟩ ⟨⟨32, 33⟩, .unequal⟩ ⟨⟨30, 31⟩, X⟩ ⟨⟨34, 35⟩, X⟩
    let body : Formula Span := .quantified ⟨6, 36⟩ ⟨⟨6, 7⟩, .existential⟩ ⟨⟨7, 8⟩, X⟩
      (.binary ⟨9, 36⟩ ⟨⟨28, 29⟩, .or⟩ (.binary ⟨10, 27⟩ ⟨⟨17, 18⟩, .and⟩ equation loop) inequation)
    let φ : Formula Span := .quantified ⟨0, 36⟩ ⟨⟨0, 1⟩, .existential⟩ ⟨⟨1, 2⟩, x⟩
      (.quantified ⟨3, 36⟩ ⟨⟨3, 4⟩, .existential⟩ ⟨⟨4, 5⟩, y⟩ body)
    let changes : List Graph.Change := [.addVertex ⟨"a"⟩, .addVertex ⟨"b"⟩, .addEdge ⟨"a"⟩ ⟨"b"⟩]
    let g := changes.foldl Graph.change {}
    let a : Assignment := { elements := ⟨[("x", 1), ("y", 0)]⟩, sets := ⟨[("X", .empty)]⟩ }
    parse "∃x ∃y ∃X ((x = x ∧ E(x, x)) ∨ X ≠ X)" = .ok φ ∧
      (equation.holds g).runOn a = (.ok true, a) ∧ (loop.holds g).runOn a = (.ok false, a) ∧
      (inequation.holds g).runOn a = (.ok false, a) ∧
      ∃ b, ∀ t, a.Binds y t → (body.holds g).runOn t = (.ok b, t) := by
  intro x y X equation loop inequation body φ changes g a
  have hparse : parse "∃x ∃y ∃X ((x = x ∧ E(x, x)) ∨ X ≠ X)" = .ok φ := by decide +kernel
  have hvalid : φ.analyze.valid = true := by decide
  have hwarnings : φ.analyze.warnings = [⟨⟨11, 16⟩, .alwaysTrue "x"⟩, ⟨⟨19, 26⟩, .selfLoop "x"⟩,
      ⟨⟨30, 35⟩, .alwaysFalse "X"⟩, ⟨⟨4, 5⟩, .unusedVariable "y"⟩] := by
    decide
  have hg : g.Reachable := Graph.Reachable.empty.changes changes
  have hinner : a.Covers ⟨[X, y, x]⟩ := by
    simp [Assignment.Covers, Assignment.Lacks, a, x, y, X, Values.get?]
  have houter : a.Covers ⟨[x]⟩ := fun z hz => hinner z (by simp_all)
  have htrue (w : Placed Span SemanticWarning) (hw : w ∈ φ.analyze.warnings) :=
    (warnings_true hparse hvalid hg hw).2
  rw [hwarnings] at htrue
  have hequation := htrue ⟨⟨11, 16⟩, .alwaysTrue "x"⟩ (by simp) ⟨⟨[X, y, x]⟩, equation⟩
    (by simp [φ, body, Formula.sites, Scope.push]) rfl a hinner
  have hloop := htrue ⟨⟨19, 26⟩, .selfLoop "x"⟩ (by simp) ⟨⟨[X, y, x]⟩, loop⟩
    (by simp [φ, body, Formula.sites, Scope.push]) rfl a hinner
  have hinequation := htrue ⟨⟨30, 35⟩, .alwaysFalse "X"⟩ (by simp) ⟨⟨[X, y, x]⟩, inequation⟩
    (by simp [φ, body, Formula.sites, Scope.push]) rfl a hinner
  have hunused := htrue ⟨⟨4, 5⟩, .unusedVariable "y"⟩ (by simp) ⟨⟨[x]⟩, _⟩
    (List.mem_cons_of_mem _ List.mem_cons_self) rfl a houter
  exact ⟨hparse, hequation, hloop, hinequation, hunused⟩

end GraphLogic
