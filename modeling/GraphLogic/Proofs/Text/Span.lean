import GraphLogic.Text.Span
import Mathlib.Data.List.Basic

/-!
# Spans in order

Spans of one text that follow each other (`Span.InOrder`), and the span from the first of some to
the last of them (`Span.hull`).

**Theorem (`Span.InOrder.groups`).** If spans in order are taken together in groups, the groups
are in order, too, and inside of all.
-/

namespace GraphLogic.Span

variable {p q : Span} {ps qs : List Span}

/-! ## Single spans -/

/-- The span in a text without its first `k` characters. -/
def shiftLeft (k : Nat) (p : Span) : Span := ⟨p.start - k, p.stop - k⟩

/-- The span in a text with `k` characters put before it. -/
def shiftRight (k : Nat) (p : Span) : Span := ⟨p.start + k, p.stop + k⟩

theorem shiftLeft_shiftRight (k : Nat) (p : Span) : (p.shiftRight k).shiftLeft k = p := by
  simp [shiftLeft, shiftRight]

theorem shiftLeft_cover (k : Nat) (p q : Span) :
    (p.cover q).shiftLeft k = (p.shiftLeft k).cover (q.shiftLeft k) := by
  simp only [shiftLeft, cover, mk.injEq]
  omega

theorem cover_eq_upTo (hstart : p.start ≤ q.start) (hstop : p.stop ≤ q.stop) :
    p.cover q = p.upTo q := by
  rw [cover, Nat.min_eq_left hstart, Nat.max_eq_right hstop, upTo]

/-! ## From the first span to the last -/

@[simp] theorem hull_singleton (p : Span) : hull [p] = p := rfl

theorem hull_append (hps : ps ≠ []) (hqs : qs ≠ []) :
    hull (ps ++ qs) = (hull ps).upTo (hull qs) := by
  simp [hull, upTo, List.head?_append, List.getLast?_append, List.head?_eq_some_head hps,
    List.getLast?_eq_some_getLast hqs]

theorem hull_cons (p : Span) (hqs : qs ≠ []) : hull (p :: qs) = p.upTo (hull qs) :=
  hull_append (List.cons_ne_nil p []) hqs

theorem hull_cons_concat (p q : Span) (ps : List Span) :
    hull (p :: (ps ++ [q])) = p.upTo q :=
  hull_append (List.cons_ne_nil p ps) (List.cons_ne_nil q [])

theorem exists_start_hull (hps : ps ≠ []) : ∃ p ∈ ps, (hull ps).start = p.start := by
  refine ⟨ps.head hps, List.head_mem hps, ?_⟩
  simp [hull, upTo, List.head?_eq_some_head hps]

theorem exists_stop_hull (hps : ps ≠ []) : ∃ p ∈ ps, (hull ps).stop = p.stop := by
  refine ⟨ps.getLast hps, List.getLast_mem hps, ?_⟩
  simp [hull, upTo, List.getLast?_eq_some_getLast hps]

/-! ## Order -/

/-- Each span ends before the next one starts. -/
structure InOrder (ps : List Span) : Prop where
  forward : ∀ p ∈ ps, p.start ≤ p.stop
  apart : ps.Pairwise fun p q => p.stop ≤ q.start

/-- One span lies inside of another. -/
def Inside (p q : Span) : Prop := q.start ≤ p.start ∧ p.stop ≤ q.stop

theorem InOrder.sublist (h : InOrder qs) (hps : ps.Sublist qs) : InOrder ps :=
  ⟨fun p hp => h.forward p (hps.subset hp), h.apart.sublist hps⟩

theorem InOrder.tail (h : InOrder (p :: ps)) : InOrder ps :=
  h.sublist (List.sublist_cons_self ..)

/-- The spans on both sides of one. -/
theorem InOrder.split (h : InOrder (ps ++ p :: qs)) :
    InOrder ps ∧ InOrder qs ∧ ∀ p ∈ ps, ∀ q ∈ qs, p.stop ≤ q.start :=
  ⟨h.sublist (List.sublist_append_left ..),
    (h.sublist (List.sublist_append_right ..)).tail,
    fun p hp q hq => (List.pairwise_append.mp h.apart).2.2 p hp q (List.mem_cons_of_mem _ hq)⟩

theorem InOrder.inside_hull (h : InOrder ps) (hp : p ∈ ps) : p.Inside (hull ps) := by
  constructor
  · cases ps with
    | nil => cases hp
    | cons first rest =>
      show first.start ≤ p.start
      rcases List.mem_cons.mp hp with rfl | hp
      · exact Nat.le_refl _
      · have hforward := h.forward first List.mem_cons_self
        exact Nat.le_trans hforward ((List.pairwise_cons.mp h.apart).1 p hp)
  · obtain ⟨init, last, rfl⟩ := (List.eq_nil_or_concat' ps).resolve_left (List.ne_nil_of_mem hp)
    have hlast : (hull (init ++ [last])).stop = last.stop := by simp [hull, upTo]
    rw [hlast]
    rcases List.mem_append.mp hp with hp | hp
    · have hforward := h.forward last (by simp)
      have hapart := (List.pairwise_append.mp h.apart).2.2 p hp last List.mem_cons_self
      exact Nat.le_trans hapart hforward
    · obtain rfl := List.mem_singleton.mp hp
      exact Nat.le_refl _

theorem InOrder.hull_forward (h : InOrder ps) (hps : ps ≠ []) :
    (hull ps).start ≤ (hull ps).stop := by
  have hhead := List.head_mem hps
  obtain ⟨hstart, hstop⟩ := h.inside_hull hhead
  exact Nat.le_trans hstart (Nat.le_trans (h.forward _ hhead) hstop)

/-- The hulls of two groups are apart, too. -/
theorem hull_apart (hps : ps ≠ []) (hqs : qs ≠ []) (h : ∀ p ∈ ps, ∀ q ∈ qs, p.stop ≤ q.start) :
    (hull ps).stop ≤ (hull qs).start := by
  obtain ⟨p, hp, hstop⟩ := exists_stop_hull hps
  obtain ⟨q, hq, hstart⟩ := exists_start_hull hqs
  rw [hstop, hstart]
  exact h p hp q hq

/-- Two groups that follow each other are covered from the first to the last. -/
theorem InOrder.cover_hull (hps : InOrder ps) (hqs : InOrder qs) (hps' : ps ≠ []) (hqs' : qs ≠ [])
    (h : ∀ p ∈ ps, ∀ q ∈ qs, p.stop ≤ q.start) :
    (hull ps).cover (hull qs) = (hull ps).upTo (hull qs) := by
  have hapart := hull_apart hps' hqs' h
  exact cover_eq_upTo (Nat.le_trans (hps.hull_forward hps') hapart)
    (Nat.le_trans hapart (hqs.hull_forward hqs'))

/-- **Groups of spans in order.** -/
theorem InOrder.groups {pss : List (List Span)} (h : InOrder pss.flatten)
    (hne : ∀ ps ∈ pss, ps ≠ []) :
    (pss.map hull).Pairwise (fun p q => p.stop ≤ q.start) ∧
      ∀ p ∈ pss.map hull, p.Inside (hull pss.flatten) := by
  obtain ⟨-, hapart⟩ := List.pairwise_flatten.mp h.apart
  constructor
  · rw [List.pairwise_map]
    refine hapart.imp_of_mem fun {ps qs} hps hqs hpq => ?_
    exact hull_apart (hne ps hps) (hne qs hqs) hpq
  · intro p hp
    obtain ⟨ps, hps, rfl⟩ := List.mem_map.mp hp
    obtain ⟨first, hfirst, hstart⟩ := exists_start_hull (hne ps hps)
    obtain ⟨last, hlast, hstop⟩ := exists_stop_hull (hne ps hps)
    rw [Inside, hstart, hstop]
    exact ⟨(h.inside_hull (List.mem_flatten_of_mem hps hfirst)).1,
      (h.inside_hull (List.mem_flatten_of_mem hps hlast)).2⟩

end GraphLogic.Span
