import GraphLogic.Proofs.Formula.Places
import Mathlib.Data.List.Nodup
import Mathlib.Data.List.Perm.Subperm

/-!
# Nodes are told apart by their places

**Theorem (`eq_of_place_eq`).** In a formula that was read no two nodes have the same place.

Each node has a symbol that belongs to it alone: the variable that it binds, its connective or sign,
its left operand, its relation. No two symbols start at the same character, so that the start of
this symbol tells the node (`eq_of_start_eq`). Two nodes at the same place are read from the same
piece of the text, and so these symbols start at the same character.
-/

namespace GraphLogic

variable {source : String} {φ m n : Formula Span} {ts us : List (Placed Span Token)}

/-! ## Symbols of their own -/

namespace Formula

/-- The place of a symbol that belongs to the node, and to none inside it. -/
def ownPlace {σ : Type} : Formula σ → σ
  | quantified _ _ x _ => x.place
  | binary _ c _ _ => c.place
  | negation _ sign _ => sign
  | comparison _ _ x _ => x.place
  | relation _ r _ => r.place

theorem ownPlace_mapPlace {σ τ : Type} (f : σ → τ) (φ : Formula σ) :
    (φ.mapPlace f).ownPlace = f φ.ownPlace := by
  cases φ <;> rfl

/-- The symbols of their own are among all symbols, each once. -/
theorem ownPlaces_subperm (φ : Formula Span) :
    (φ.nodes.map ownPlace).Subperm (φ.symbols.map (·.place)) := by
  induction φ with
  | quantified p q x φ ih =>
    have hbody := (List.subperm_cons x.place).mpr ih
    exact hbody.trans (List.sublist_cons_self ..).subperm
  | binary p c φ ψ ihφ ihψ =>
    have hboth := (List.subperm_cons c.place).mpr (ihφ.append ihψ)
    simp only [nodes, symbols, List.map_cons, List.map_append]
    exact hboth.trans List.perm_middle.symm.subperm
  | negation p sign φ ih => exact (List.subperm_cons sign).mpr ih
  | comparison p o x y => exact (List.sublist_append_left [x.place] _).subperm
  | relation p r xs => exact (List.sublist_append_left [r.place] _).subperm

theorem ownPlace_mem (φ : Formula Span) : φ.ownPlace ∈ φ.symbols.map (·.place) :=
  φ.ownPlaces_subperm.subset (List.mem_map_of_mem φ.mem_nodes_self)

end Formula

/-! ## The starts of the symbols -/

theorem Munched.starts_nodup (h : Munched source ts) : (ts.map (·.place.start)).Nodup := by
  have hforward : (places ts).Pairwise fun p q => p.start < q.start := by
    refine h.inOrder.apart.imp_of_mem ?_
    intro p q hp _ hpq
    exact Nat.lt_of_lt_of_le (h.tiles.nonempty p hp) hpq
  rw [List.Nodup, List.pairwise_map]
  refine (List.pairwise_map.mp hforward).imp ?_
  intro t u htu
  exact Nat.ne_of_lt htu

/-- Nodes whose own symbols start at the same character are the same node. -/
theorem eq_of_start_eq (h : parse source = .ok φ) (hn : n ∈ φ.nodes) (hm : m ∈ φ.nodes)
    (hstart : n.ownPlace.start = m.ownPlace.start) : n = m := by
  obtain ⟨ts, hts, hφ⟩ := parse_eq_ok_iff_phrase.mp h
  have hsymbols : ((φ.symbols.map (·.place)).map Span.start).Nodup := by
    rw [List.map_map, hφ.symbols_eq]
    exact (munched_of_lexemes hts).starts_nodup.sublist (List.filter_sublist.map _)
  have hnodes : (φ.nodes.map (·.ownPlace.start)).Nodup := by
    obtain ⟨ps, hperm, hsublist⟩ := φ.ownPlaces_subperm
    have hps := (hperm.map Span.start).nodup_iff.mp (hsymbols.sublist (hsublist.map _))
    rwa [List.map_map] at hps
  exact List.inj_on_of_nodup_map hnodes hn hm hstart

/-! ## The places of the nodes -/

theorem Phrase.start_le_ownPlace {c : Category} (h : Phrase c us n)
    (ho : Span.InOrder (places us)) : n.place.start ≤ n.ownPlace.start := by
  have hmem : n.ownPlace ∈ places us := by
    have hown := n.ownPlace_mem
    rw [h.symbols_eq] at hown
    exact (List.filter_sublist.map _).subset hown
  rw [h.place_eq ho]
  exact (ho.inside_hull hmem).1

/-- **Nodes are told apart by their places.** For every text that is read as a formula. -/
theorem eq_of_place_eq (h : parse source = .ok φ) (hn : n ∈ φ.nodes) (hm : m ∈ φ.nodes)
    (hplace : n.place = m.place) : n = m := by
  obtain ⟨ts, hts, hφ⟩ := parse_eq_ok_iff_phrase.mp h
  have hread : ∀ k ∈ φ.nodes, k.place.start ≤ k.ownPlace.start ∧
      parse (k.place.cut source) = .ok (k.mapPlace (Span.shiftLeft k.place.start)) := by
    intro k hk
    obtain ⟨us, hus, hphrase⟩ := hφ.of_mem_nodes hk
    have hinOrder := (munched_of_lexemes hts).inOrder.sublist (hus.sublist.map _)
    exact ⟨hphrase.start_le_ownPlace hinOrder, hphrase.parse_cut hts hus⟩
  obtain ⟨hnstart, hncut⟩ := hread n hn
  obtain ⟨hmstart, hmcut⟩ := hread m hm
  rw [hplace, hmcut] at hncut
  have hshift := congrArg (·.ownPlace.start) (Except.ok.inj hncut)
  simp only [Formula.ownPlace_mapPlace, Span.shiftLeft] at hshift
  rw [hplace] at hnstart
  apply eq_of_start_eq h hn hm
  omega

end GraphLogic
