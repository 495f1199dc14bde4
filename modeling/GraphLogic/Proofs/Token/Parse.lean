import GraphLogic.Token.Parse
import Mathlib.Data.List.Basic

/-!
# Running parsers

How a parser made of others comes out, told from how its parts come out.

What was missed on the way only counts if it is further than what was read. `Takes` says that it
is not: then a later miss is the furthest, and earlier ones can be forgotten. Only a repetition
ends with a miss that still counts (`many_spec`), as it ends where its part misses something.
-/

namespace GraphLogic

/-! ## Misses -/

namespace Miss

variable {m n : Miss} {rest rest' : List (Placed Span Token)} {missed missed' : Option Miss}

theorem furthest_of_lt (h : m.rest.length < n.rest.length) : m.furthest n = m := if_pos h

theorem furthest_of_gt (h : n.rest.length < m.rest.length) : m.furthest n = n := by
  rw [furthest, if_neg (Nat.lt_asymm h), if_pos h]

theorem furthest_of_eq (h : m.rest = n.rest) :
    m.furthest n = ⟨m.rest, m.expected ++ n.expected⟩ := by
  rw [furthest, h, if_neg (Nat.lt_irrefl _), if_neg (Nat.lt_irrefl _), ← h]

theorem length_lt_furthest {k : Nat} (hm : k < m.rest.length) (hn : k < n.rest.length) :
    k < (m.furthest n).rest.length := by
  unfold furthest
  split_ifs <;> assumption

/-- Everything missed lies before the tokens `rest`. -/
def Behind (rest : List (Placed Span Token)) (missed : Option Miss) : Prop :=
  ∀ m ∈ missed, rest.length < m.rest.length

theorem behind_none : Behind rest none := fun _ hm => by cases hm

theorem behind_some (h : rest.length < m.rest.length) : Behind rest (some m) := by
  rintro _ ⟨⟩
  exact h

theorem Behind.mono (h : Behind rest missed) (hle : rest'.length ≤ rest.length) :
    Behind rest' missed :=
  fun m hm => Nat.lt_of_le_of_lt hle (h m hm)

theorem Behind.merge (h : Behind rest missed) (h' : Behind rest missed') :
    Behind rest (missed.merge furthest missed') := by
  cases missed with
  | none => cases missed' <;> exact h'
  | some m =>
    cases missed' with
    | none => exact h
    | some n => exact behind_some (length_lt_furthest (h m rfl) (h' n rfl))

/-- A miss further on is all that counts. -/
theorem Behind.elim (h : Behind rest missed) (hm : m.rest.length ≤ rest.length) :
    missed.elim m m.furthest = m := by
  cases missed with
  | none => rfl
  | some n => exact furthest_of_lt (Nat.lt_of_le_of_lt hm (h n rfl))

theorem Behind.merge_some (h : Behind rest missed) (hm : m.rest.length ≤ rest.length) :
    missed.merge furthest (some m) = some m := by
  cases missed with
  | none => rfl
  | some n => exact congrArg some (furthest_of_gt (Nat.lt_of_le_of_lt hm (h n rfl)))

end Miss

namespace Parse

variable {α β γ : Type} {p q : Parse α} {f : α → Parse β} {a : α} {b : β} {m n : Miss} {t : Token}
  {ts us used rest rest' : List (Placed Span Token)} {missed : Option Miss}

/-! ## Results -/

theorem bind_error (hp : p.run ts = .error m) (f : α → Parse β) :
    (p >>= f).run ts = .error m := by
  show (p.andThen f).run ts = _
  simp only [andThen, hp]

theorem bind_ok {r : Parsed β} (hp : p.run ts = .ok ⟨a, rest, missed⟩)
    (hf : (f a).run rest = .ok r) :
    (p >>= f).run ts = .ok { r with missed := missed.merge Miss.furthest r.missed } := by
  show (p.andThen f).run ts = _
  simp only [andThen, hp, hf]

theorem bind_ok_error (hp : p.run ts = .ok ⟨a, rest, missed⟩) (hf : (f a).run rest = .error m) :
    (p >>= f).run ts = .error (missed.elim m m.furthest) := by
  show (p.andThen f).run ts = _
  simp only [andThen, hp, hf]

theorem orElse_ok {r : Parsed α} (hp : p.run ts = .ok r) (q : Parse α) :
    (p <|> q).run ts = .ok r := by
  show (p.otherwise q).run ts = _
  simp only [otherwise, hp]

theorem orElse_error_ok {r : Parsed α} (hp : p.run ts = .error m) (hq : q.run ts = .ok r) :
    (p <|> q).run ts = .ok { r with missed := (some m).merge Miss.furthest r.missed } := by
  show (p.otherwise q).run ts = _
  simp only [otherwise, hp, hq]

theorem orElse_error (hp : p.run ts = .error m) (hq : q.run ts = .error n) :
    (p <|> q).run ts = .error (m.furthest n) := by
  show (p.otherwise q).run ts = _
  simp only [otherwise, hp, hq]

theorem mapWithSpan_error {g : α → Span → β} (hp : p.run ts = .error m) :
    (p.mapWithSpan g).run ts = .error m := by
  simp only [mapWithSpan, hp]

theorem mapWithSpan_orElse (g : α → Span → β) (p q : Parse α) :
    (p <|> q).mapWithSpan g = (p.mapWithSpan g <|> q.mapWithSpan g) := by
  show (p.otherwise q).mapWithSpan g = (p.mapWithSpan g).otherwise (q.mapWithSpan g)
  unfold mapWithSpan otherwise
  congr 1
  funext ts
  dsimp only
  cases p.run ts with
  | ok a => rfl
  | error m => cases q.run ts <;> rfl

/-- A parser reads `a` up to the tokens `rest`, and missed nothing that still counts there. -/
def Takes (a : α) (rest : List (Placed Span Token)) (result : Except Miss (Parsed α)) : Prop :=
  ∃ missed, result = .ok ⟨a, rest, missed⟩ ∧ Miss.Behind rest missed

theorem Takes.unique {result : Except Miss (Parsed α)} {a' : α} (h : Takes a rest result)
    (h' : Takes a' rest' result) : a = a' ∧ rest = rest' := by
  obtain ⟨missed, rfl, -⟩ := h
  obtain ⟨missed', h', -⟩ := h'
  cases h'
  exact ⟨rfl, rfl⟩

theorem Takes.ne_error {result : Except Miss (Parsed α)} (h : Takes a rest result) :
    result ≠ .error m := by
  obtain ⟨missed, rfl, -⟩ := h
  intro h
  cases h

theorem takes_pure (a : α) (ts : List (Placed Span Token)) :
    Takes a ts ((pure a : Parse α).run ts) :=
  ⟨none, rfl, Miss.behind_none⟩

theorem Takes.bind (hp : Takes a rest (p.run ts)) (hf : Takes b rest' ((f a).run rest))
    (hle : rest'.length ≤ rest.length) : Takes b rest' ((p >>= f).run ts) := by
  obtain ⟨missed, hp, hmissed⟩ := hp
  obtain ⟨missed', hf, hmissed'⟩ := hf
  exact ⟨_, bind_ok hp hf, (hmissed.mono hle).merge hmissed'⟩

theorem Takes.bind_error (hp : Takes a rest (p.run ts)) (hf : (f a).run rest = .error m)
    (hle : m.rest.length ≤ rest.length) : (p >>= f).run ts = .error m := by
  obtain ⟨missed, hp, hmissed⟩ := hp
  rw [bind_ok_error hp hf, hmissed.elim hle]

theorem Takes.orElse_left (hp : Takes a rest (p.run ts)) (q : Parse α) :
    Takes a rest ((p <|> q).run ts) := by
  obtain ⟨missed, hp, hmissed⟩ := hp
  exact ⟨missed, orElse_ok hp q, hmissed⟩

theorem Takes.orElse_right (hp : p.run ts = .error m) (hq : Takes a rest (q.run ts))
    (hlt : rest.length < m.rest.length) : Takes a rest ((p <|> q).run ts) := by
  obtain ⟨missed, hq, hmissed⟩ := hq
  exact ⟨_, orElse_error_ok hp hq, (Miss.behind_some hlt).merge hmissed⟩

theorem Takes.mapWithSpan {g : α → Span → β} (hp : Takes a rest (p.run (used ++ rest))) :
    Takes (g a (Span.hull (used.map (·.place)))) rest ((p.mapWithSpan g).run (used ++ rest)) := by
  obtain ⟨missed, hp, hmissed⟩ := hp
  refine ⟨missed, ?_, hmissed⟩
  simp [Parse.mapWithSpan, hp]

theorem Takes.located {u : Placed Span Token} (hp : Takes a rest (p.run (u :: rest))) :
    Takes ⟨u.place, a⟩ rest (p.located.run (u :: rest)) := by
  show Takes _ rest (p.located.run ([u] ++ rest))
  exact Takes.mapWithSpan hp

/-! ## Single tokens -/

theorem just_head (t : Token) (a : α) (place : Span) (rest : List (Placed Span Token)) :
    (just t a).run (⟨place, t⟩ :: rest) = .ok ⟨a, rest, none⟩ := if_pos rfl

theorem takes_just (t : Token) (a : α) (place : Span) (rest : List (Placed Span Token)) :
    Takes a rest ((just t a).run (⟨place, t⟩ :: rest)) :=
  ⟨none, just_head t a place rest, Miss.behind_none⟩

theorem just_error (h : ∀ u ∈ ts.head?, u.value ≠ t) (a : α) :
    (just t a).run ts = .error ⟨ts, [t]⟩ := by
  cases ts with
  | nil => rfl
  | cons u ts => exact if_neg (h u rfl)

theorem takes_select {g : Token → Option α} (hg : g t = some a) (expected : Token) (place : Span)
    (rest : List (Placed Span Token)) :
    Takes a rest ((select expected g).run (⟨place, t⟩ :: rest)) := by
  refine ⟨none, ?_, Miss.behind_none⟩
  simp only [select, hg]

theorem takes_oneOf {g : α → Token} {as : List α} (hg : Function.Injective g) (ha : a ∈ as)
    (place : Span) (rest : List (Placed Span Token)) :
    Takes a rest ((oneOf g as).run (⟨place, g a⟩ :: rest)) := by
  induction as with
  | nil => cases ha
  | cons b as ih =>
    by_cases hab : a = b
    · subst hab
      exact (takes_just _ _ _ _).orElse_left _
    · have hmem : a ∈ as := (List.mem_cons.mp ha).resolve_left hab
      refine Takes.orElse_right (just_error ?_ b) (ih hmem) (Nat.lt_succ_self _)
      rintro _ ⟨⟩
      exact fun h => hab (hg h)

/-- Something, and a token behind it. -/
theorem before_cases (hp : p.run ts = .ok ⟨a, rest, some m⟩) (t : Token) :
    (∃ place rest', rest = ⟨place, t⟩ :: rest' ∧
      (rest'.length < m.rest.length → Takes a rest' ((p.before t).run ts))) ∨
      (∀ u ∈ rest.head?, u.value ≠ t) ∧
        (p.before t).run ts = .error ((⟨rest, [t]⟩ : Miss).furthest m) := by
  by_cases h : ∀ u ∈ rest.head?, u.value ≠ t
  · exact Or.inr ⟨h, bind_ok_error hp (bind_error (just_error h ()) _)⟩
  · push Not at h
    obtain ⟨⟨place, t⟩, hu, rfl⟩ := h
    obtain ⟨rest', rfl⟩ := List.head?_eq_some_iff.mp hu
    refine Or.inl ⟨place, rest', rfl, fun hlt => ⟨some m, ?_, Miss.behind_some hlt⟩⟩
    exact bind_ok (f := fun a => just t () >>= fun _ => pure a) hp
      (bind_ok (r := ⟨a, rest', none⟩) (just_head t () place rest') rfl)

/-! ## Repetition -/

/-- The parser reads the values one after the other, up to the tokens `rest`. -/
inductive Reads (p : Parse α) :
    List (Placed Span Token) → List α → List (Placed Span Token) → Prop
  | done (ts : List (Placed Span Token)) : Reads p ts [] ts
  | more {ts ts' rest : List (Placed Span Token)} {a : α} {as : List α} :
      Takes a ts' (p.run ts) → Reads p ts' as rest → Reads p ts (a :: as) rest

/-- A parser takes a token if it reads something, and goes back to no earlier miss otherwise. -/
def Forward (p : Parse α) (ts : List (Placed Span Token)) : Prop :=
  (∃ a rest, Takes a rest (p.run ts) ∧ rest.length < ts.length) ∨
    ∃ m, p.run ts = .error m ∧ m.rest.length ≤ ts.length

theorem Forward.length_le (h : Forward p ts) (hm : p.run ts = .error m) :
    m.rest.length ≤ ts.length := by
  rcases h with ⟨a, rest, ha, -⟩ | ⟨n, hn, hle⟩
  · exact absurd hm ha.ne_error
  · rw [hm] at hn
    cases hn
    exact hle

theorem maybe_of_takes (hp : Takes a rest (p.run ts)) : Takes (some a) rest (p.maybe.run ts) :=
  Takes.orElse_left (hp.bind (takes_pure (some a) rest) (Nat.le_refl _)) _

theorem maybe_of_error (hp : p.run ts = .error m) :
    p.maybe.run ts = .ok ⟨none, ts, some m⟩ := by
  have hmap : (some <$> p : Parse (Option α)).run ts = .error m := bind_error hp _
  exact orElse_error_ok (r := ⟨none, ts, none⟩) hmap rfl

theorem manyUpTo_spec {limit : Nat} (hlimit : ts.length < limit)
    (hp : ∀ us, us.length ≤ ts.length → Forward p us) :
    ∃ as rest m, (manyUpTo limit p).run ts = .ok ⟨as, rest, some m⟩ ∧ p.run rest = .error m ∧
      rest.length ≤ ts.length ∧ Reads p ts as rest := by
  induction limit generalizing ts with
  | zero => omega
  | succ limit ih =>
    unfold manyUpTo
    rcases hp ts (Nat.le_refl _) with ⟨a, ts', ha, hlt⟩ | ⟨m, hm, -⟩
    · obtain ⟨as, rest, m, hmany, hm, hrest, has⟩ :=
        ih (by omega : ts'.length < limit) fun us hus => hp us (by omega)
      obtain ⟨missed, hmaybe, hmissed⟩ := maybe_of_takes ha
      have hlast : m.rest.length ≤ ts'.length :=
        Nat.le_trans ((hp rest (by omega)).length_le hm) hrest
      refine ⟨a :: as, rest, m, ?_, hm, by omega, .more ha has⟩
      refine Eq.trans (bind_ok hmaybe (bind_ok hmany rfl)) ?_
      show Except.ok (Parsed.mk (a :: as) rest (missed.merge Miss.furthest (some m))) = _
      rw [hmissed.merge_some hlast]
    · refine ⟨[], ts, m, ?_, hm, Nat.le_refl _, .done ts⟩
      exact bind_ok (r := ⟨[], ts, none⟩) (maybe_of_error hm) rfl

/-- A parser is repeated up to its first miss, and that miss is kept. -/
theorem many_spec (hp : ∀ us, us.length ≤ ts.length → Forward p us) :
    ∃ as rest m, (many p).run ts = .ok ⟨as, rest, some m⟩ ∧ p.run rest = .error m ∧
      rest.length ≤ ts.length ∧ Reads p ts as rest :=
  manyUpTo_spec (Nat.lt_succ_self _) hp

/-- The miss at the end of a repetition also counts for what stands before the repetition. -/
theorem bind_many {q : Parse β} {bs : List β} {g : α → List β → γ}
    (hp : Takes a ts (p.run used)) (hq : (many q).run ts = .ok ⟨bs, rest, some m⟩)
    (hm : m.rest.length ≤ ts.length) :
    (p >>= fun a => many q >>= fun bs => pure (g a bs)).run used =
      .ok ⟨g a bs, rest, some m⟩ := by
  obtain ⟨missed, hp, hmissed⟩ := hp
  refine Eq.trans (bind_ok hp (bind_ok hq rfl)) ?_
  show Except.ok (Parsed.mk (g a bs) rest (missed.merge Miss.furthest (some m))) = _
  rw [hmissed.merge_some hm]

/-! ## Recursion -/

/-- What holds of a parser whenever it holds of the parser inside it on fewer tokens. -/
theorem recursive_spec {g : Parse α → Parse α}
    {P : List (Placed Span Token) → Except Miss (Parsed α) → Prop}
    (h : ∀ inner ts, (∀ us, us.length < ts.length → P us (inner.run us)) → P ts ((g inner).run ts))
    (ts : List (Placed Span Token)) : P ts ((recursive g).run ts) := by
  have hdepth : ∀ depth us, us.length < depth → P us ((unrolled g depth).run us) := by
    intro depth
    induction depth with
    | zero =>
      intro us hus
      omega
    | succ depth ih =>
      intro us hus
      exact h _ us fun vs hvs => ih vs (by omega)
  exact hdepth _ ts (Nat.lt_succ_self _)

end Parse

end GraphLogic
