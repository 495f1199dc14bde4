import GraphLogic.Formula.Choice
import GraphLogic.Proofs.Token.Parse
import GraphLogic.Proofs.Formula.Phrase.Tree
import GraphLogic.Proofs.Formula.Refusal

/-!
# What parsers of formulas come to

A parser by ordered choice agrees with the reader if it reads the same phrases, and where it
misses something, the reader does not go on either, and takes the same tokens instead
(`Advances`).

**Theorem (`Parses.orElse`).** Alternatives that start with different tokens agree with the reader
together, if each of them does: at most one of them takes a token, and if none does, they are
missed together.
-/

namespace GraphLogic

variable {ts us used rest : List (Placed Span Token)} {r r' : Reader} {m n : Miss}
  {es fs : List Token} {t : Token}

/-! ## Misses of the reader -/

/-- None of the tokens `es` is there, and they are what was expected, up to descriptions. -/
def Miss.Fits (m : Miss) (es : List Token) : Prop :=
  ∀ t ∈ m.rest.head?, t.value.sample ∉ es ∧ ∀ u, u ∈ m.expected.map Token.sample ↔ u ∈ es

theorem Miss.Fits.merge (hm : m.Fits es) (hn : n.Fits fs) (h : m.rest = n.rest) :
    (m.furthest n).Fits (es ++ fs) := by
  rw [furthest_of_eq h]
  intro t ht
  obtain ⟨hes, hm⟩ := hm t ht
  obtain ⟨hfs, hn⟩ := hn t (h ▸ ht)
  refine ⟨?_, fun u => ?_⟩
  · rw [List.mem_append]
    exact not_or.mpr ⟨hes, hfs⟩
  · rw [List.map_append, List.mem_append, List.mem_append, hm, hn]

theorem Miss.Fits.congr (hm : m.Fits es) (h : ∀ u, u ∈ es ↔ u ∈ fs) : m.Fits fs := by
  intro t ht
  obtain ⟨hes, hm⟩ := hm t ht
  exact ⟨fun ht => hes ((h _).mpr ht), fun u => (hm u).trans (h u)⟩

namespace Reader

/-- The samples of the tokens that can come next. -/
def expected (r : Reader) : List Token := Token.samples.filter r.admits

/-- From the state, the tokens lead to the miss. -/
def Misses (r : Reader) (ts : List (Placed Span Token)) (m : Miss) : Prop :=
  ∃ used r', ts = used ++ m.rest ∧ r.steps? used = some r' ∧ m.Fits r'.expected

theorem Misses.of_steps (hr : r.steps? used = some r') (h : r'.Misses rest m)
    (hts : ts = used ++ rest) : r.Misses ts m := by
  obtain ⟨used', r'', rfl, hr', hm⟩ := h
  refine ⟨used ++ used', r'', ?_, ?_, hm⟩
  · rw [hts, List.append_assoc]
  · rw [steps?_append hr, hr']

theorem Misses.of_step {t : Placed Span Token} (hr : r.step? t = some r') (h : r'.Misses rest m) :
    r.Misses (t :: rest) m := by
  obtain ⟨used, r'', rfl, hr', hm⟩ := h
  exact ⟨t :: used, r'', rfl, (steps?_cons hr used).trans hr', hm⟩

theorem misses_of_fits (hrest : m.rest = ts) (hm : m.Fits r.expected) : r.Misses ts m :=
  ⟨[], r, hrest.symm, rfl, hm⟩

theorem Misses.length_le (h : r.Misses ts m) : m.rest.length ≤ ts.length := by
  obtain ⟨used, r', rfl, -, -⟩ := h
  simp

end Reader

/-! ## Parsers that take no token -/

namespace Parse

variable {α β : Type} {p q : Parse α}

/-- A parser takes none of the tokens `ts`, and expects the tokens `es`. -/
def Missing (ts : List (Placed Span Token)) (es : List Token)
    (result : Except Miss (Parsed α)) : Prop :=
  ∃ m, result = .error m ∧ m.rest = ts ∧ m.Fits es

theorem Missing.congr {result : Except Miss (Parsed α)} (h : Missing ts es result)
    (hes : ∀ u, u ∈ es ↔ u ∈ fs) : Missing ts fs result := by
  obtain ⟨m, hm, hrest, hfits⟩ := h
  exact ⟨m, hm, hrest, hfits.congr hes⟩

theorem Missing.bind (hp : Missing ts es (p.run us)) (f : α → Parse β) :
    Missing ts es ((p >>= f).run us) := by
  obtain ⟨m, hm, hrest, hfits⟩ := hp
  exact ⟨m, bind_error hm f, hrest, hfits⟩

theorem Missing.mapWithSpan {g : α → Span → β} (hp : Missing ts es (p.run us)) :
    Missing ts es ((p.mapWithSpan g).run us) := by
  obtain ⟨m, hm, hrest, hfits⟩ := hp
  exact ⟨m, mapWithSpan_error hm, hrest, hfits⟩

theorem Missing.located (hp : Missing ts es (p.run us)) : Missing ts es (p.located.run us) :=
  hp.mapWithSpan

theorem Missing.orElse (hp : Missing ts es (p.run us)) (hq : Missing ts fs (q.run us)) :
    Missing ts (es ++ fs) ((p <|> q).run us) := by
  obtain ⟨m, hm, hrest, hfits⟩ := hp
  obtain ⟨n, hn, hrest', hfits'⟩ := hq
  have heq : m.rest = n.rest := hrest.trans hrest'.symm
  refine ⟨_, orElse_error hm hn, ?_, hfits.merge hfits' heq⟩
  rw [Miss.furthest_of_eq heq]
  exact hrest

theorem missing_just (ht : ∀ x, t ≠ .var x) (h : ∀ u ∈ ts.head?, u.value ≠ t) (a : α) :
    Missing ts [t] ((just t a).run ts) := by
  have hself : t.sample = t := by
    cases t with
    | var x => exact absurd rfl (ht x)
    | _ => rfl
  have hsample : ∀ u : Token, u.sample = t → u = t := by
    intro u hu
    cases u with
    | var x => exact absurd hu.symm (ht _)
    | _ => exact hu
  refine ⟨⟨ts, [t]⟩, just_error h a, rfl, fun u hu => ⟨?_, fun v => ?_⟩⟩
  · rw [List.mem_singleton]
    exact fun hs => h u hu (hsample _ hs)
  · rw [List.map_singleton, hself]

theorem missing_oneOf {g : α → Token} {as : List α} (hvar : ∀ a x, g a ≠ .var x)
    (h : ∀ u ∈ ts.head?, ∀ a ∈ as, u.value ≠ g a) :
    Missing ts (as.map g) ((oneOf g as).run ts) := by
  induction as with
  | nil => exact ⟨_, rfl, rfl, fun u hu => ⟨List.not_mem_nil, fun v => Iff.rfl⟩⟩
  | cons b as ih =>
    have hb := missing_just (hvar b) (fun u hu => h u hu b List.mem_cons_self) b
    exact hb.orElse (ih fun u hu a ha => h u hu a (List.mem_cons_of_mem _ ha))

/-- The symbols of a kind. -/
theorem oneOf_cases {g : α → Token} {as : List α} (hg : Function.Injective g)
    (hvar : ∀ a x, g a ≠ .var x) (has : ∀ a, a ∈ as) (ts : List (Placed Span Token)) :
    (∃ (a : Placed Span α) (rest : List (Placed Span Token)),
      ts = ⟨a.place, g a.value⟩ :: rest ∧ Takes a rest ((located (oneOf g as)).run ts)) ∨
      Missing ts (as.map g) ((located (oneOf g as)).run ts) := by
  by_cases h : ∀ u ∈ ts.head?, ∀ a, u.value ≠ g a
  · exact Or.inr (missing_oneOf hvar fun u hu a _ => h u hu a).located
  · push Not at h
    obtain ⟨⟨place, _⟩, hu, a, rfl⟩ := h
    obtain ⟨rest, rfl⟩ := List.head?_eq_some_iff.mp hu
    exact Or.inl ⟨⟨place, a⟩, rest, rfl, Takes.located (takes_oneOf hg (has a) place rest)⟩

/-- A token that is missing behind a repetition, which may have come further itself. -/
theorem misses_furthest (es : List Token) (ht : ∀ x, t ≠ .var x) (h : ∀ u ∈ rest.head?, u.value ≠ t)
    (hes : ∀ u, u ∈ t :: es ↔ u ∈ r.expected)
    (hm : m.rest = rest ∧ m.Fits es ∨ m.rest.length < rest.length ∧ r.Misses rest m) :
    r.Misses rest ((⟨rest, [t]⟩ : Miss).furthest m) := by
  rcases hm with ⟨hrest, hfits⟩ | ⟨hlt, hm⟩
  · obtain ⟨n, hn, -, hfits'⟩ := missing_just ht h ()
    rw [just_error h ()] at hn
    cases hn
    refine Reader.misses_of_fits ?_ ((hfits'.merge hfits hrest.symm).congr hes)
    rw [Miss.furthest_of_eq hrest.symm]
  · rwa [Miss.furthest_of_gt hlt]

end Parse

namespace Grammar

open Parse Reader

/-! ## Parsers of formulas -/

/-- A parser gets below `limit` tokens. It reads a phrase, or comes to the same miss as the
reader. -/
def Advances (c : Category) (ts : List (Placed Span Token)) (limit : Nat)
    (result : Except Miss (Parsed (Formula Span))) : Prop :=
  (∃ used φ rest, ts = used ++ rest ∧ rest.length < limit ∧ Phrase c used φ ∧
    Takes φ rest result) ∨
  ∃ m, result = .error m ∧ m.rest.length < limit ∧ ∀ r, c.Begins r → r.Misses ts m

section

variable {c : Category} {p q : Parse (Formula Span)} {limit limit' : Nat}

theorem Advances.mono {result : Except Miss (Parsed (Formula Span))}
    (h : Advances c ts limit result) (hle : limit ≤ limit') : Advances c ts limit' result := by
  rcases h with ⟨used, φ, rest, hts, hlt, h⟩ | ⟨m, hm, hlt, h⟩
  · exact Or.inl ⟨used, φ, rest, hts, Nat.lt_of_lt_of_le hlt hle, h⟩
  · exact Or.inr ⟨m, hm, Nat.lt_of_lt_of_le hlt hle, h⟩

/-- An alternative that does not get as far does not count. -/
theorem Advances.orElse_left (hp : Advances c ts limit (p.run ts)) (hq : q.run ts = .error n)
    (hn : limit ≤ n.rest.length) : Advances c ts limit ((p <|> q).run ts) := by
  rcases hp with ⟨used, φ, rest, hts, hlt, hφ, hp⟩ | ⟨m, hm, hlt, hmisses⟩
  · exact Or.inl ⟨used, φ, rest, hts, hlt, hφ, hp.orElse_left q⟩
  · refine Or.inr ⟨m, ?_, hlt, hmisses⟩
    rw [orElse_error hm hq, Miss.furthest_of_lt (by omega)]

theorem Advances.orElse_right (hp : p.run ts = .error m) (hm : limit ≤ m.rest.length)
    (hq : Advances c ts limit (q.run ts)) : Advances c ts limit ((p <|> q).run ts) := by
  rcases hq with ⟨used, φ, rest, hts, hlt, hφ, hq⟩ | ⟨n, hn, hlt, hmisses⟩
  · exact Or.inl ⟨used, φ, rest, hts, hlt, hφ, Takes.orElse_right hp hq (by omega)⟩
  · refine Or.inr ⟨n, ?_, hlt, hmisses⟩
    rw [orElse_error hp hn, Miss.furthest_of_gt (by omega)]

/-- What stops behind one token, stops there for the reader. -/
theorem Advances.of_missing {t : Placed Span Token}
    {result : Except Miss (Parsed (Formula Span))} (h : Missing us es result)
    (hr : ∀ r, c.Begins r → ∃ r', r.step? t = some r' ∧ r'.expected = es) :
    Advances c (t :: us) (t :: us).length result := by
  obtain ⟨m, hm, rfl, hfits⟩ := h
  refine Or.inr ⟨m, hm, Nat.lt_succ_self _, fun r hbegins => ?_⟩
  obtain ⟨r', hstep, rfl⟩ := hr r hbegins
  exact Misses.of_step hstep (misses_of_fits rfl hfits)

/-- What `p` reads, with its own place. -/
def spanning (p : Parse (Span → Formula Span)) : Parse (Formula Span) :=
  p.mapWithSpan fun φ place => φ place

theorem Advances.of_takes {α : Type} {p : Parse α} {g : α → Span → Formula Span} {a : α}
    (hts : ts = used ++ rest) (hp : Takes a rest (p.run ts)) (hlt : rest.length < limit)
    (hφ : Phrase c used (g a (Span.hull (places used)))) :
    Advances c ts limit ((p.mapWithSpan g).run ts) := by
  subst hts
  exact Or.inl ⟨used, _, rest, rfl, hlt, hφ, hp.mapWithSpan⟩

/-- A parser takes some of the tokens if the first of them is one of `es`, and misses them
otherwise. -/
def Parses (c : Category) (es : List Token) (ts : List (Placed Span Token))
    (result : Except Miss (Parsed (Formula Span))) : Prop :=
  (∃ u ∈ ts.head?, u.value.sample ∈ es) ∧ Advances c ts ts.length result ∨ Missing ts es result

/-- **Ordered choice.** Of alternatives that start with different tokens, at most one counts. -/
theorem Parses.orElse (hp : Parses c es ts (p.run ts)) (hq : Parses c fs ts (q.run ts))
    (hes : ∀ u ∈ es, u ∉ fs) : Parses c (es ++ fs) ts ((p <|> q).run ts) := by
  rcases hp with ⟨⟨u, hu, hmem⟩, hp⟩ | hp
  · rcases hq with ⟨⟨v, hv, hmem'⟩, -⟩ | ⟨n, hn, hrest, -⟩
    · rw [Option.mem_unique hu hv] at hmem
      exact absurd hmem' (hes _ hmem)
    · exact Or.inl ⟨⟨u, hu, List.mem_append_left _ hmem⟩, hp.orElse_left hn (by rw [hrest])⟩
  · rcases hq with ⟨⟨v, hv, hmem⟩, hq⟩ | hq
    · obtain ⟨m, hm, hrest, -⟩ := hp
      exact Or.inl ⟨⟨v, hv, List.mem_append_right _ hmem⟩,
        Advances.orElse_right hm (by rw [hrest]) hq⟩
    · exact Or.inr (hp.orElse hq)

/-- A parser reads a phrase, or comes to the same miss as the reader in every state that expects
the same tokens. -/
theorem Parses.outcome {result : Except Miss (Parsed (Formula Span))}
    (h : Parses c es ts result) :
    (∃ used φ rest, ts = used ++ rest ∧ rest.length < ts.length ∧ Phrase c used φ ∧
      Takes φ rest result) ∨
    ∃ m, result = .error m ∧ m.rest.length ≤ ts.length ∧
      ∀ r, c.Begins r → (∀ u, u ∈ es ↔ u ∈ r.expected) → r.Misses ts m := by
  rcases h with ⟨-, h | ⟨m, hm, hlt, hmisses⟩⟩ | ⟨m, hm, hrest, hfits⟩
  · exact Or.inl h
  · exact Or.inr ⟨m, hm, Nat.le_of_lt hlt, fun r hr _ => hmisses r hr⟩
  · exact Or.inr ⟨m, hm, by rw [hrest], fun r _ hes => misses_of_fits hrest (hfits.congr hes)⟩

end

end Grammar

end GraphLogic
