import GraphLogic.Proofs.Except
import GraphLogic.Proofs.Token.Choice
import Mathlib.Data.List.Basic

/-!
# Tokens are as long as possible

**Theorem (`tokenize_munches`).** The raw lexer comes to the end of every text. If no lexeme is a
fault, the tokens are nonempty, in order and apart, they hold all characters but the blanks, none
of them could be longer, and each of them, cut out of the text, is read as itself. Otherwise the
text is refused at its leftmost fault: what stands before it has only tokens.

All of this holds of the cuts of the lexical grammar. What is needed beside an induction over them
is that a cut can be cut off (`Cuts.split`): a lexeme that leads a text leads every text that ends
earlier, too, so its neighbours on the right do not matter.
-/

namespace GraphLogic

variable {start : Nat} {c : Char} {w tail text : List Char}

/-! ## Tilings -/

namespace Span

/-- The span holds the character at the offset `i`. -/
def Holds (s : Span) (i : Nat) : Prop := s.start ≤ i ∧ i < s.stop

end Span

/-- In the text, which starts at the offset `start`, the places are nonempty, in order and apart,
and hold all characters that are no blanks, and only these. -/
structure Tiles (start : Nat) (text : List Char) (places : List Span) : Prop where
  nonempty : ∀ p ∈ places, p.start < p.stop
  inside : ∀ p ∈ places, start ≤ p.start ∧ p.stop ≤ start + text.length
  apart : places.Pairwise fun p q => p.stop ≤ q.start
  blank_iff : ∀ i c, text[i]? = some c → (isBlank c = true ↔ ∀ p ∈ places, ¬ p.Holds (start + i))

namespace Tiles

variable {places : List Span}

theorem nil (start : Nat) : Tiles start [] [] where
  nonempty := by simp
  inside := by simp
  apart := .nil
  blank_iff := by simp

theorem blank (hc : isBlank c = true) (h : Tiles (start + 1) text places) :
    Tiles start (c :: text) places where
  nonempty := h.nonempty
  inside p hp := by
    have := h.inside p hp
    rw [List.length_cons]
    omega
  apart := h.apart
  blank_iff i d hd := by
    cases i with
    | zero =>
      obtain rfl : c = d := by simpa using hd
      refine iff_of_true hc fun p hp hholds => ?_
      have := (h.inside p hp).1
      unfold Span.Holds at hholds
      omega
    | succ i =>
      have hi := h.blank_iff i d (by simpa using hd)
      rwa [Nat.add_assoc, Nat.add_comm 1 i] at hi

theorem append (hw : ∀ c ∈ w, isBlank c = false) (hne : w ≠ [])
    (h : Tiles (start + w.length) tail places) :
    Tiles start (w ++ tail) (⟨start, start + w.length⟩ :: places) where
  nonempty := by
    have := List.length_pos_iff.mpr hne
    refine List.forall_mem_cons.mpr ⟨?_, h.nonempty⟩
    show start < start + w.length
    omega
  inside := by
    rw [List.length_append]
    refine List.forall_mem_cons.mpr ⟨⟨Nat.le_refl _, ?_⟩, fun p hp => ?_⟩
    · show start + w.length ≤ start + (w.length + tail.length)
      omega
    · have := h.inside p hp
      omega
  apart := List.pairwise_cons.mpr ⟨fun p hp => (h.inside p hp).1, h.apart⟩
  blank_iff i d hd := by
    rw [List.forall_mem_cons]
    by_cases hi : i < w.length
    · have hd' : d ∈ w := by
        rw [List.getElem?_append_left hi] at hd
        exact List.mem_of_getElem? hd
      refine iff_of_false (by simp [hw d hd']) fun hnone => hnone.1 ?_
      exact ⟨Nat.le_add_right start i, Nat.add_lt_add_left hi start⟩
    · have hi' := h.blank_iff (i - w.length) d (by
        rwa [List.getElem?_append_right (Nat.le_of_not_lt hi)] at hd)
      have hoffset : start + w.length + (i - w.length) = start + i := by omega
      rw [hoffset] at hi'
      refine hi'.trans ⟨fun hnone => ⟨fun hholds => ?_, hnone⟩, fun hnone => hnone.2⟩
      exact hi (Nat.lt_of_add_lt_add_left hholds.2)

end Tiles

namespace Lexeme

variable {l : Lexeme} {p : Span} {ls ls' : List (Placed Span Lexeme)}

theorem Cuts.tiles (h : Cuts start text ls) : Tiles start text (ls.map (·.place)) := by
  induction h with
  | done => exact .nil _
  | blank hc _ ih => exact ih.blank hc
  | lexeme hl _ ih =>
    obtain ⟨c, rest, rfl⟩ := hl.ne_nil
    exact ih.append hl.not_blank (List.cons_ne_nil c rest)

/-! ## Cutting off -/

/-- A lexeme that leads a text leads it also when the text ends earlier. -/
theorem Leads.of_append {more : List Char} (h : Leads l w (tail ++ more)) : Leads l w tail := by
  have hhead : ∀ c ∈ tail.head?, c ∈ (tail ++ more).head? := by
    intro c hc
    exact List.mem_head?_append_of_mem_head? hc
  cases h with
  | keyword hw ht htail => exact .keyword hw ht fun c hc => htail c (hhead c hc)
  | unknownKeyword hw ht htail => exact .unknownKeyword hw ht fun c hc => htail c (hhead c hc)
  | missingKeyword htail => exact .missingKeyword fun c hc => htail c (hhead c hc)
  | unequal => exact .unequal
  | negation htail => exact .negation fun hc => htail (hhead '=' hc)
  | sign ht => exact .sign ht
  | name hw htail => exact .name hw fun c hc => htail c (hhead c hc)
  | illegal hblank hletter hc => exact .illegal hblank hletter hc

/-- A cut text can be cut off on either side of each lexeme: what stands before it, what stands up
to its end and what stands after it are cut as they were. -/
theorem Cuts.split (h : Cuts start text (ls ++ ⟨p, l⟩ :: ls')) :
    ∃ before w tail, text = before ++ (w ++ tail) ∧
      p = ⟨start + before.length, start + before.length + w.length⟩ ∧
      Leads l w tail ∧ Cuts start before ls ∧
      Cuts start (before ++ w) (ls ++ [⟨p, l⟩]) ∧
      Cuts (start + before.length + w.length) tail ls' := by
  generalize hall : ls ++ ⟨p, l⟩ :: ls' = all at h
  induction h generalizing ls with
  | done => simp at hall
  | @blank start c text all hc _ ih =>
    obtain ⟨before, w, tail, rfl, hp, hl, hbefore, hupto, htail⟩ := ih hall
    have hlength : start + (c :: before).length = start + 1 + before.length := by
      rw [List.length_cons, Nat.add_assoc, Nat.add_comm 1]
    exact ⟨c :: before, w, tail, rfl, hlength ▸ hp, hl, .blank hc hbefore, .blank hc hupto,
      hlength ▸ htail⟩
  | @lexeme start l₁ w₁ tail₁ all hl₁ hrest ih =>
    cases ls with
    | nil =>
      obtain ⟨heq, rfl⟩ := List.cons.inj hall
      cases heq
      have halone : Leads l w₁ ([] ++ tail₁) := hl₁
      have hupto : Cuts start (w₁ ++ []) [⟨⟨start, start + w₁.length⟩, l⟩] :=
        .lexeme halone.of_append .done
      rw [List.append_nil] at hupto
      exact ⟨[], w₁, tail₁, rfl, rfl, hl₁, .done, hupto, hrest⟩
    | cons l₂ ls =>
      obtain ⟨heq, htails⟩ := List.cons.inj hall
      cases heq
      obtain ⟨before, w, tail, rfl, hp, hl, hbefore, hupto, htail⟩ := ih htails
      have hlength : start + (w₁ ++ before).length = start + w₁.length + before.length := by
        rw [List.length_append, Nat.add_assoc]
      have hl₂ : Leads l₁ w₁ ((before ++ w) ++ tail) := by rwa [List.append_assoc]
      refine ⟨w₁ ++ before, w, tail, (List.append_assoc ..).symm, hlength ▸ hp, hl,
        .lexeme hl₁.of_append hbefore, ?_, hlength ▸ htail⟩
      rw [List.append_assoc]
      exact .lexeme hl₂.of_append hupto

/-- A lexeme by itself is cut as itself. -/
theorem scan_self (h : Leads l w tail) : scan 0 w = [⟨⟨0, w.length⟩, l⟩] := by
  have halone : Leads l w [] := h.of_append
  have hself := scan_of_leads halone 0
  rw [List.append_nil, Nat.zero_add] at hself
  rw [hself, scan]

/-! ## Longer lexemes -/

/-- With `c` behind them, the characters of a lexeme would be those of a longer one. -/
inductive Lengthens : List Char → Char → Prop
  | word {w : List Char} {c : Char} : IsWord w → Prolongs w c → Lengthens w c
  | keyword {w : List Char} {c : Char} : IsWord w → Prolongs w c → Lengthens ('\\' :: w) c
  | negation : Lengthens ['!'] '='

theorem isWord_cons_letter (h : IsWord (c :: w)) : isLetter c = true := by
  obtain ⟨d, rest, heq, hd⟩ := h.head
  cases heq
  exact hd

theorem not_isWord_of_mark (hc : c ∈ marks) : ¬ IsWord (c :: w) := fun h =>
  Bool.false_ne_true ((not_letter_of_mark hc).symm.trans (isWord_cons_letter h))

theorem Leads.not_lengthens (h : Leads l w tail) (hc : c ∈ tail.head?) : ¬ Lengthens w c := by
  have hslash : ∀ v, ¬ IsWord ('\\' :: v) := fun v => not_isWord_of_mark (by decide)
  have hnil : ¬ IsWord [] := by
    intro h
    obtain ⟨d, rest, hrest, -⟩ := h.head
    cases hrest
  intro hlonger
  cases hlonger with
  | word hw hlonger =>
    cases h with
    | keyword _ _ _ | unknownKeyword _ _ _ | missingKeyword _ => exact hslash _ hw
    | unequal | negation _ => exact not_isWord_of_mark (by decide) hw
    | sign ht =>
      have hsign := Token.exists_ofSign?_iff.mp ⟨_, ht⟩
      exact not_isWord_of_mark (List.mem_cons_of_mem _ (List.mem_cons_of_mem _ hsign)) hw
    | name _ htail => exact htail c hc hlonger
    | illegal _ hletter _ =>
      exact Bool.false_ne_true (hletter.symm.trans (isWord_cons_letter hw))
  | keyword hw hlonger =>
    cases h with
    | keyword _ _ htail | unknownKeyword _ _ htail => exact htail c hc hlonger
    | missingKeyword _ => exact hnil hw
    | sign ht => cases ht
    | name hname _ => exact hslash _ hname
    | illegal _ _ hmark => exact hmark (by decide)
  | negation =>
    cases h with
    | negation htail => exact htail hc
    | sign ht => cases ht
    | name hname _ => exact not_isWord_of_mark (by decide) hname
    | illegal _ _ hmark => exact hmark (by decide)

/-! ## Tokens and faults -/

/-- Tokens as lexemes. -/
def ofTokens (ts : List (Placed Span Token)) : List (Placed Span Lexeme) :=
  ts.map fun t => ⟨t.place, token t.value⟩

theorem mem_ofTokens {t : Placed Span Token} {ts : List (Placed Span Token)} (ht : t ∈ ts) :
    ⟨t.place, token t.value⟩ ∈ ofTokens ts :=
  List.mem_map.mpr ⟨t, ht, rfl⟩

theorem map_place_ofTokens (ts : List (Placed Span Token)) :
    (ofTokens ts).map (·.place) = ts.map (·.place) := List.map_map

theorem tokens_eq_ok_iff {ts : List (Placed Span Token)} :
    tokens ls = .ok ts ↔ ls = ofTokens ts := by
  induction ls generalizing ts with
  | nil =>
    constructor
    · intro h
      cases h
      rfl
    · intro h
      rw [List.map_eq_nil_iff.mp h.symm]
      rfl
  | cons l ls ih =>
    obtain ⟨place, lexeme⟩ := l
    constructor
    · intro h
      cases lexeme with
      | fault f => cases h
      | token t =>
        obtain ⟨us, hus, rfl⟩ := exists_of_map_eq_ok h
        exact congrArg (⟨place, token t⟩ :: ·) (ih.mp hus)
    · intro h
      cases ts with
      | nil => cases h
      | cons t ts =>
        obtain ⟨heq, hls⟩ := List.cons.inj h
        cases heq
        rw [tokens, ih.mpr hls]
        rfl

theorem tokens_eq_error_iff {f : Placed Span LexicalFault} :
    tokens ls = .error f ↔ ∃ ts ls', ls = ofTokens ts ++ ⟨f.place, fault f.value⟩ :: ls' := by
  induction ls with
  | nil =>
    refine iff_of_false (fun h => by cases h) ?_
    rintro ⟨ts, ls', h⟩
    exact absurd h.symm (List.append_ne_nil_of_right_ne_nil _ (List.cons_ne_nil _ _))
  | cons l ls ih =>
    obtain ⟨place, lexeme⟩ := l
    constructor
    · intro h
      cases lexeme with
      | fault g =>
        cases h
        exact ⟨[], ls, rfl⟩
      | token t =>
        obtain ⟨ts, ls', hls⟩ := ih.mp (error_of_map h)
        exact ⟨⟨place, t⟩ :: ts, ls', congrArg (⟨place, token t⟩ :: ·) hls⟩
    · rintro ⟨ts, ls', h⟩
      cases ts with
      | nil =>
        obtain ⟨heq, -⟩ := List.cons.inj h
        cases heq
        rfl
      | cons t ts =>
        obtain ⟨heq, hls⟩ := List.cons.inj h
        cases heq
        rw [tokens, ih.mpr ⟨ts, ls', hls⟩]
        rfl

end Lexeme

open Lexeme

/-- Tokens with the end of the input behind them, in a text of `n` characters. -/
def closed (n : Nat) (ts : List (Placed Span Token)) : List (Placed Span Token) :=
  ts ++ [⟨⟨n, n⟩, .endOfInput⟩]

variable {source : String} {ts : List (Placed Span Token)} {l : Placed Span Lexeme}

theorem tokenize_eq_ok_iff :
    tokenize source = .ok ts ↔
      ∃ us, lexemes source = ofTokens us ∧ ts = closed source.toList.length us := by
  unfold tokenize
  constructor
  · intro h
    obtain ⟨us, hus, rfl⟩ := exists_of_map_eq_ok h
    exact ⟨us, tokens_eq_ok_iff.mp hus, rfl⟩
  · rintro ⟨us, hus, rfl⟩
    rw [tokens_eq_ok_iff.mpr hus]
    rfl

theorem tokenize_eq_error_iff {f : Placed Span LexicalFault} :
    tokenize source = .error f ↔
      ∃ us ls, lexemes source = ofTokens us ++ ⟨f.place, .fault f.value⟩ :: ls := by
  rw [← tokens_eq_error_iff]
  unfold tokenize
  constructor
  · intro h
    exact error_of_map h
  · intro h
    rw [h]
    rfl

theorem cuts_lexemes (source : String) : Cuts 0 source.toList (lexemes source) := cuts_scan 0 _

/-- A lexeme leads the text at its place, with the characters that its place holds. -/
theorem leads_of_mem (h : l ∈ lexemes source) :
    Leads l.value (l.place.cut source).toList (source.toList.drop l.place.stop) ∧
      (l.place.cut source).toList.length = l.place.length := by
  obtain ⟨ls, ls', hls⟩ := List.append_of_mem h
  obtain ⟨before, w, tail, hsource, hplace, hl, -⟩ := (hls ▸ cuts_lexemes source).split
  have hcut : (l.place.cut source).toList = w := by
    simp [Span.cut, Span.length, hplace, hsource]
  have hdrop : source.toList.drop l.place.stop = tail := by
    rw [hplace, hsource, Nat.zero_add, ← List.length_append, ← List.append_assoc, List.drop_left]
  have hlength : l.place.length = w.length := by simp [Span.length, hplace]
  rw [hcut, hdrop]
  exact ⟨hl, hlength.symm⟩

/-- The cutting of a text into these tokens is as it should be. -/
structure Munched (source : String) (ts : List (Placed Span Token)) : Prop where
  tiles : Tiles 0 source.toList (ts.map (·.place))
  not_end : ∀ t ∈ ts, t.value ≠ .endOfInput
  /-- Each token, cut out of the text, is read as itself. -/
  again : ∀ t ∈ ts, tokenize (t.place.cut source) =
    .ok (closed t.place.length [⟨⟨0, t.place.length⟩, t.value⟩])
  /-- No token could be longer. -/
  maximal : ∀ t ∈ ts, ∀ c, source.toList[t.place.stop]? = some c →
    ¬ Lengthens (t.place.cut source).toList c

theorem Lexeme.Leads.not_end {t : Token} (h : Leads (.token t) w tail) : t ≠ .endOfInput := by
  rcases h.isFixed_or_name with hfixed | ⟨-, rfl⟩
  · rintro rfl
    exact hfixed
  · unfold Token.ofName
    split <;> nofun

theorem munched_of_lexemes (h : lexemes source = ofTokens ts) : Munched source ts := by
  have hleads : ∀ t ∈ ts,
      Leads (.token t.value) (t.place.cut source).toList (source.toList.drop t.place.stop) ∧
        (t.place.cut source).toList.length = t.place.length := by
    intro t ht
    have hmem : ⟨t.place, .token t.value⟩ ∈ ofTokens ts := mem_ofTokens ht
    rw [← h] at hmem
    have hl := leads_of_mem hmem
    exact hl
  refine ⟨?_, ?_, ?_, ?_⟩
  · have htiles := (cuts_lexemes source).tiles
    rwa [h, map_place_ofTokens] at htiles
  · intro t ht
    exact (hleads t ht).1.not_end
  · intro t ht
    obtain ⟨hl, hlength⟩ := hleads t ht
    refine tokenize_eq_ok_iff.mpr ⟨[⟨⟨0, t.place.length⟩, t.value⟩], ?_, ?_⟩
    · rw [lexemes, scan_self hl, hlength]
      rfl
    · rw [hlength]
  · intro t ht c hc
    refine (hleads t ht).1.not_lengthens ?_
    rwa [List.head?_drop]

/-- **Tokens are as long as possible.** For every text: the raw lexer comes to its end. If there
are tokens, they are as they should be, with the end of the input behind them. If not, the text is
refused at a fault that stands in it as the grammar says, and what stands before the fault has only
tokens, those in front of the fault. -/
theorem tokenize_munches (source : String) :
    lexer source.toList = some (lexemes source, []) ∧
    (∀ ts, tokenize source = .ok ts → ∃ us, ts = closed source.toList.length us ∧
      Munched source us) ∧
    ∀ f, tokenize source = .error f → ∃ us ls before w tail,
      lexemes source = ofTokens us ++ ⟨f.place, .fault f.value⟩ :: ls ∧
      source.toList = before ++ (w ++ tail) ∧
      f.place = ⟨before.length, before.length + w.length⟩ ∧ Leads (.fault f.value) w tail ∧
      tokenize (String.ofList before) = .ok (closed before.length us) := by
  refine ⟨lexer_eq _, ?_, ?_⟩
  · intro ts hts
    obtain ⟨us, hus, rfl⟩ := tokenize_eq_ok_iff.mp hts
    exact ⟨us, rfl, munched_of_lexemes hus⟩
  · intro f hf
    obtain ⟨us, ls, hls⟩ := tokenize_eq_error_iff.mp hf
    obtain ⟨before, w, tail, hsource, hplace, hl, hbefore, -⟩ :=
      (hls ▸ cuts_lexemes source).split
    rw [Nat.zero_add] at hplace
    refine ⟨us, ls, before, w, tail, hls, hsource, hplace, hl, ?_⟩
    refine tokenize_eq_ok_iff.mpr ⟨us, ?_, ?_⟩
    · rw [lexemes, String.toList_ofList]
      exact hbefore.scan_eq
    · rw [String.toList_ofList]

/-- A name with digits ends before the next letter. -/
example : (tokenize "x1y").map (·.map (·.place)) = .ok [⟨0, 2⟩, ⟨2, 3⟩, ⟨3, 3⟩] := by
  decide +kernel

end GraphLogic
