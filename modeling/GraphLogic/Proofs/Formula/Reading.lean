import GraphLogic.Proofs.Formula.Reading.Sentence
import Mathlib.Data.List.TakeWhile

/-!
# Reading follows the grammar

**Theorem (`exists_formula_iff`).** A list of tokens is read as a formula exactly when the tokens
before the first end of the input are a sentence of the grammar, and the tree that is read is the
tree of the sentence. What stands behind the end of the input is never looked at
(`Cursor.formula_append`).

The two halves are `Reader.Follows.sentence` and `Sentence.steps`. What is left is to find the
first end of the input, which a cursor puts behind the tokens where it is missing.
-/

namespace GraphLogic

variable {φ : Formula Span} {r : Reader} {t : Placed Span Token} {ts : List (Placed Span Token)}

/-- The tokens before the first end of the input. -/
def beforeEnd (ts : List (Placed Span Token)) : List (Placed Span Token) :=
  ts.takeWhile fun t => t.value != .endOfInput

namespace Reader

variable {us : List (Placed Span Token)} {stop stop' : Nat}

theorem read_append (hts : ∀ t ∈ ts, t.value ≠ .endOfInput) (ht : t.value = .endOfInput) :
    r.read stop (ts ++ t :: us) = .ok φ ↔ ∃ r', r.steps? ts = some r' ∧ r'.result? = some φ := by
  induction ts generalizing r with
  | nil =>
    rw [List.nil_append, read, if_pos ht]
    constructor
    · intro h
      split at h
      · rename_i ψ hψ
        cases h
        exact ⟨r, rfl, hψ⟩
      · cases h
    · rintro ⟨r', hr, hφ⟩
      cases hr
      rw [hφ]
  | cons u ts ih =>
    have hts' : ∀ t ∈ ts, t.value ≠ .endOfInput := fun t ht => hts t (List.mem_cons_of_mem _ ht)
    rw [List.cons_append, read, if_neg (hts u List.mem_cons_self)]
    cases hstep : r.step? u with
    | none =>
      rw [steps?, hstep]
      constructor
      · intro h
        cases h
      · rintro ⟨r', h, -⟩
        cases h
    | some next =>
      rw [steps?_cons hstep]
      exact ih hts'

/-- What stands behind an end of the input is not looked at, nor is the end of the text. -/
theorem read_append_congr (ht : t.value = .endOfInput) (us vs : List (Placed Span Token)) :
    r.read stop (ts ++ t :: us) = r.read stop' (ts ++ t :: vs) := by
  induction ts generalizing r with
  | nil =>
    rw [List.nil_append, List.nil_append, read, read, if_pos ht, if_pos ht]
  | cons u ts ih =>
    rw [List.cons_append, List.cons_append, read, read]
    split
    · rfl
    · cases r.step? u with
      | none => rfl
      | some next => exact ih

end Reader

theorem mem_beforeEnd (ht : t ∈ beforeEnd ts) : t.value ≠ .endOfInput := by
  have hbne := List.mem_takeWhile_imp ht
  exact bne_iff_ne.mp hbne

theorem beforeEnd_append (hts : ∀ t ∈ ts, t.value ≠ .endOfInput) (ht : t.value = .endOfInput)
    (us : List (Placed Span Token)) : beforeEnd (ts ++ t :: us) = ts := by
  unfold beforeEnd
  rw [List.takeWhile_append_of_pos fun t ht => bne_iff_ne.mpr (hts t ht),
    List.takeWhile_cons_of_neg (by simp [ht]), List.append_nil]

theorem beforeEnd_cases (ts : List (Placed Span Token)) :
    beforeEnd ts = ts ∨ ∃ t us, ts = beforeEnd ts ++ t :: us ∧ t.value = .endOfInput := by
  unfold beforeEnd
  induction ts with
  | nil => exact Or.inl rfl
  | cons t ts ih =>
    by_cases ht : t.value = .endOfInput
    · refine Or.inr ⟨t, ts, ?_, ht⟩
      rw [List.takeWhile_cons_of_neg (by simp [ht]), List.nil_append]
    · rw [List.takeWhile_cons_of_pos (by simp [ht])]
      rcases ih with ih | ⟨u, us, ih, hu⟩
      · exact Or.inl (congrArg (t :: ·) ih)
      · exact Or.inr ⟨u, us, congrArg (t :: ·) ih, hu⟩

namespace Cursor

/-- A cursor adds nothing to the tokens but an end of the input. -/
theorem remaining_ofTokens (tokens : List (Placed Span Token)) :
    ((ofTokens tokens).remaining = tokens ∧ ∃ t ∈ tokens, t.value = .endOfInput) ∨
      ∃ t, (ofTokens tokens).remaining = tokens ++ [t] ∧ t.value = .endOfInput := by
  unfold ofTokens
  dsimp only
  split
  · rename_i place hlast
    exact Or.inl ⟨rfl, _, List.mem_of_getLast? hlast, rfl⟩
  · exact Or.inr ⟨_, rfl, rfl⟩

/-- A list that ends with the end of the input is walked over as it is. -/
theorem remaining_ofTokens_concat (tokens : List (Placed Span Token)) (place : Span) :
    (ofTokens (tokens ++ [⟨place, .endOfInput⟩])).remaining = tokens ++ [⟨place, .endOfInput⟩] := by
  unfold ofTokens
  simp

/-- The tokens of a cursor go on behind those before the end of the input. -/
theorem exists_remaining (tokens : List (Placed Span Token)) :
    ∃ t us, (ofTokens tokens).remaining = beforeEnd tokens ++ t :: us ∧
      t.value = .endOfInput := by
  rcases remaining_ofTokens tokens with ⟨hrem, u, hmem, hu⟩ | ⟨u, hrem, hu⟩
  · rcases beforeEnd_cases tokens with hall | ⟨t, us, htokens, ht⟩
    · rw [← hall] at hmem
      exact absurd hu (mem_beforeEnd hmem)
    · exact ⟨t, us, hrem.trans htokens, ht⟩
  · rcases beforeEnd_cases tokens with hall | ⟨t, us, htokens, ht⟩
    · exact ⟨u, [], by rw [hrem, hall], hu⟩
    · refine ⟨t, us ++ [u], ?_, ht⟩
      rw [hrem, ← List.cons_append, ← List.append_assoc, ← htokens]

theorem formula_eq_ok_iff (tokens : List (Placed Span Token)) :
    (ofTokens tokens).formula = .ok φ ↔
      ∃ r, ({} : Reader).steps? (beforeEnd tokens) = some r ∧ r.result? = some φ := by
  obtain ⟨t, us, hrem, ht⟩ := exists_remaining tokens
  unfold formula
  rw [hrem]
  exact Reader.read_append (fun _ => mem_beforeEnd) ht

theorem formula_append (tokens after : List (Placed Span Token)) (place : Span) :
    (ofTokens (tokens ++ ⟨place, .endOfInput⟩ :: after)).formula =
      (ofTokens (tokens ++ [⟨place, .endOfInput⟩])).formula := by
  have hremaining : ∀ us : List (Placed Span Token), ∃ vs, (ofTokens
      (tokens ++ ⟨place, .endOfInput⟩ :: us)).remaining = tokens ++ ⟨place, .endOfInput⟩ :: vs := by
    intro us
    rcases remaining_ofTokens (tokens ++ ⟨place, .endOfInput⟩ :: us) with ⟨hrem, -⟩ | ⟨u, hrem, -⟩
    · exact ⟨us, hrem⟩
    · exact ⟨us ++ [u], by rw [hrem, List.append_assoc, List.cons_append]⟩
  obtain ⟨us, hus⟩ := hremaining after
  obtain ⟨vs, hvs⟩ := hremaining []
  unfold formula
  rw [hus, hvs]
  exact Reader.read_append_congr rfl us vs

end Cursor

/-- A formula that is read is a sentence of the grammar, and its tree is that of the sentence. -/
theorem sentence_of_formula_eq_ok {tokens : List (Placed Span Token)}
    (hφ : (Cursor.ofTokens tokens).formula = .ok φ) :
    Sentence .formula ((beforeEnd tokens).map (·.value)) φ.bare := by
  obtain ⟨r, hr, hresult⟩ := (Cursor.formula_eq_ok_iff tokens).mp hφ
  exact (Reader.follows_start.steps hr).sentence hresult

/-- **Reading follows the grammar.** A formula is read just where the tokens before the first end of
the input are a sentence, and its tree is that of the sentence. -/
theorem exists_formula_iff (tokens : List (Placed Span Token)) (φ : Formula Unit) :
    (∃ ψ, (Cursor.ofTokens tokens).formula = .ok ψ ∧ ψ.bare = φ) ↔
      Sentence .formula ((beforeEnd tokens).map (·.value)) φ := by
  constructor
  · rintro ⟨ψ, hψ, rfl⟩
    exact sentence_of_formula_eq_ok hψ
  · intro hφ
    obtain ⟨ψ, rfl, hψ⟩ := hφ.steps (r := {}) ⟨rfl, rfl⟩ rfl
    exact ⟨ψ, (Cursor.formula_eq_ok_iff tokens).mpr ⟨_, hψ, rfl⟩, rfl⟩

/-- All connectives are at one level, and group to the left. -/
example :
    let x : Variable := ⟨.element, "x"⟩
    let atom : List Token := [.var x, .comparison .equal, .var x]
    let tokens := atom ++ .connective .or :: atom ++ .connective .and :: atom
    let φ : Formula Unit := .comparison () ⟨(), .equal⟩ ⟨(), x⟩ ⟨(), x⟩
    (Cursor.ofTokens (tokens.map fun t => ⟨default, t⟩)).formula.map Formula.bare =
      .ok (.binary () ⟨(), .and⟩ (.binary () ⟨(), .or⟩ φ φ) φ) := by
  rfl

end GraphLogic
