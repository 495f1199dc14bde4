import GraphLogic.Proofs.Analysis.Traversal
import GraphLogic.Proofs.Formula.Refusal
import GraphLogic.Proofs.Formula.Text
import GraphLogic.Proofs.Pipeline
import Mathlib.Data.List.Sort
import Mathlib.Data.String.Basic

/-!
# Layout does not matter

**Theorem (`run_layout`).** If two texts have the same tokens, wherever these stand, then either
both are read as one formula, analysed with the same findings and answered alike on every graph, or
both are refused with one message, at the same token.

Texts with the same tokens are written with the same lexemes, and what is read from a text depends
on its lexemes only (`parse_of_values`). Moving the places in a formula moves those of the findings
and does not change what is found (`errors_mapPlace`, `cautions_mapPlace`), nor how the formula is
evaluated (`holds_mapPlace`). Where a text is refused, the place among the tokens and the message
are both fixed by what formulas could go on with (`SyntaxError.Explains.agree`).
-/

namespace GraphLogic

open Lexeme

/-! ## Formulas without places -/

namespace Formula

variable {σ τ υ : Type}

theorem mapPlace_mapPlace (f : σ → τ) (g : τ → υ) (φ : Formula σ) :
    (φ.mapPlace f).mapPlace g = φ.mapPlace (g ∘ f) := by
  induction φ with
  | quantified p q x φ ih => simp only [mapPlace, ih, Placed.mapPlace, Function.comp_apply]
  | binary p c φ ψ ihφ ihψ =>
    simp only [mapPlace, ihφ, ihψ, Placed.mapPlace, Function.comp_apply]
  | negation p sign φ ih => simp only [mapPlace, ih, Function.comp_apply]
  | comparison p o x y => rfl
  | relation p r xs =>
    simp only [mapPlace, List.map_map, Placed.mapPlace, Function.comp_apply]
    rfl

/-- Formulas that differ in places only are the same once all places are moved to one. -/
theorem mapPlace_const_eq {φ ψ : Formula σ} (h : φ.bare = ψ.bare) (p : τ) :
    φ.mapPlace (fun _ => p) = ψ.mapPlace (fun _ => p) := by
  have hall := congrArg (mapPlace fun _ => p) h
  rwa [bare, bare, mapPlace_mapPlace, mapPlace_mapPlace] at hall

end Formula

/-! ## Analysis -/

section

variable (f : Span → Span)

theorem undeclaredUnder_mapPlace (names : Finset String) (x : Placed Span Variable) :
    (undeclaredUnder names (x.mapPlace f)).map (·.value) =
      (undeclaredUnder names x).map (·.value) := by
  unfold undeclaredUnder
  rw [Placed.mapPlace]
  split <;> rfl

theorem errors_mapPlace (φ : Formula Span) (names : Finset String) :
    ((φ.mapPlace f).errorsUnder names).map (·.value) = (φ.errorsUnder names).map (·.value) := by
  induction φ generalizing names with
  | quantified p q x φ ih =>
    simp only [Formula.mapPlace, Formula.errorsUnder, Placed.mapPlace, List.map_append, ih]
    split <;> rfl
  | binary p c φ ψ ihφ ihψ =>
    simp only [Formula.mapPlace, Formula.errorsUnder, List.map_append, ihφ, ihψ]
  | negation p sign φ ih => exact ih names
  | comparison p o x y =>
    show (undeclaredUnder names (x.mapPlace f) ++
      if x.value.name = y.value.name then []
      else undeclaredUnder names (y.mapPlace f) ++
        if x.value.sort = y.value.sort then [] else [_]).map _ = _
    rw [Formula.errorsUnder, List.map_append, List.map_append, undeclaredUnder_mapPlace]
    congr 1
    split
    · rfl
    · rw [List.map_append, List.map_append, undeclaredUnder_mapPlace]
      split <;> rfl
  | relation p r xs =>
    obtain ⟨pr, r⟩ := r
    unfold Formula.mapPlace Formula.errorsUnder
    rw [List.map_append, List.map_append, List.map_append, List.map_append, List.length_map,
      List.flatMap_map, List.map_flatMap, List.map_flatMap]
    refine congrArg₂ (· ++ ·) (congrArg₂ (· ++ ·) ?_ ?_) ?_
    · cases r with
      | edge => rfl
      | set name => exact undeclaredUnder_mapPlace f names ⟨pr, ⟨.set, name⟩⟩
    · show (if xs.length = r.arity then [] else [_]).map _ = _
      split <;> rfl
    · refine congrArg (xs.flatMap ·) (funext fun x => ?_)
      rw [List.map_append, List.map_append, undeclaredUnder_mapPlace]
      obtain ⟨px, ⟨_ | _, name⟩⟩ := x <;> rfl

theorem mentions_mapPlace (φ : Formula Span) : (φ.mapPlace f).mentions = φ.mentions := by
  induction φ with
  | quantified p q x φ ih => exact ih
  | binary p c φ ψ ihφ ihψ => exact congrArg₂ (· ++ ·) ihφ ihψ
  | negation p sign φ ih => exact ih
  | comparison p o x y => rfl
  | relation p r xs =>
    unfold Formula.mapPlace Formula.mentions
    rw [List.map_map]
    rfl

theorem cautions_mapPlace (φ : Formula Span) :
    (φ.mapPlace f).cautions.map (·.value) = φ.cautions.map (·.value) := by
  induction φ with
  | quantified p q x φ ih =>
    unfold Formula.mapPlace Formula.cautions
    rw [List.map_append, List.map_append, ih, mentions_mapPlace]
    show _ ++ (if x.value.name ∈ φ.mentions then [] else [_]).map _ = _
    congr 1
    split <;> rfl
  | binary p c φ ψ ihφ ihψ =>
    unfold Formula.mapPlace Formula.cautions
    rw [List.map_append, List.map_append, ihφ, ihψ]
  | negation p sign φ ih => exact ih
  | comparison p o x y =>
    obtain ⟨po, o⟩ := o
    show (if x.value.name = y.value.name then _ else []).map _ = _
    rw [Formula.cautions]
    split
    · cases o <;> rfl
    · rfl
  | relation p r xs =>
    obtain ⟨pr, _ | name⟩ := r
    · rcases xs with _ | ⟨x, _ | ⟨y, _ | ⟨z, xs⟩⟩⟩
      · rfl
      · rfl
      · show (if x.value.name = y.value.name then [_] else []).map _ =
          (if x.value.name = y.value.name then [_] else []).map _
        split <;> rfl
      · rfl
    · rfl

end

/-- The analyses found the same, at whatever places. -/
structure Analysis.SameFindings (a b : Analysis) : Prop where
  isValid : a.isValid = b.isValid
  errors : a.errors.map (·.value) = b.errors.map (·.value)
  warnings : a.warnings.map (·.value) = b.warnings.map (·.value)

theorem Formula.analyze_sameFindings {φ ψ : Formula Span} (h : φ.bare = ψ.bare) :
    φ.analyze.SameFindings ψ.analyze := by
  have hplaced := mapPlace_const_eq h (default : Span)
  have herrors : (φ.errorsUnder ∅).map (·.value) = (ψ.errorsUnder ∅).map (·.value) := by
    rw [← errors_mapPlace (fun _ => default), hplaced, errors_mapPlace]
  have hwarnings : φ.cautions.map (·.value) = ψ.cautions.map (·.value) := by
    rw [← cautions_mapPlace (fun _ => default), hplaced, cautions_mapPlace]
  have hnil : φ.errorsUnder ∅ = [] ↔ ψ.errorsUnder ∅ = [] := by
    rw [← List.map_eq_nil_iff, herrors, List.map_eq_nil_iff]
  unfold analyze
  rw [analyzeIn_eq, analyzeIn_eq]
  exact ⟨decide_eq_decide.mpr hnil, herrors, hwarnings⟩

/-! ## Evaluation -/

namespace Formula

variable {σ τ : Type} (g : Graph) (f : σ → τ)

theorem arguments_mapPlace (r : Relation) (xs : List (Placed σ Variable)) :
    Evaluation.arguments r (xs.map (·.mapPlace f)) = Evaluation.arguments r xs := by
  induction xs with
  | nil => rfl
  | cons x xs ih =>
    obtain ⟨_, ⟨_ | _, name⟩⟩ := x
    · show (do return (← Evaluation.element name) :: (← Evaluation.arguments r _)) = _
      rw [ih]
      rfl
    · rfl

/-- Evaluation does not look at places. -/
theorem holds_mapPlace (φ : Formula σ) : (φ.mapPlace f).holds g = φ.holds g := by
  induction φ with
  | quantified p q x φ ih =>
    unfold mapPlace holds
    rw [ih]
    rfl
  | binary p c φ ψ ihφ ihψ =>
    unfold mapPlace holds
    rw [ihφ, ihψ]
    rfl
  | negation p sign φ ih =>
    unfold mapPlace holds
    rw [ih]
  | comparison p o x y => rfl
  | relation p r xs =>
    unfold mapPlace holds
    rw [arguments_mapPlace]
    rfl

theorem evaluate_eq_of_bare {φ ψ : Formula σ} (h : φ.bare = ψ.bare) :
    φ.evaluate g = ψ.evaluate g := by
  unfold evaluate
  rw [← holds_mapPlace g (fun _ => ()) φ, ← holds_mapPlace g (fun _ => ()) ψ]
  exact congrArg (fun χ : Formula Unit => ((χ.holds g).runOn {}).1) h

end Formula

/-! ## Texts with the same lexemes -/

section

variable {a b : String} {φ ψ : Formula Span}

/-- What is read from a text depends on its lexemes only. -/
theorem parse_of_values (h : values a.toList = values b.toList) (hφ : parse a = .ok φ) :
    ∃ ψ, parse b = .ok ψ ∧ ψ.bare = φ.bare := by
  obtain ⟨p, hp, hsentence⟩ := parse_iff_sentence.mp ⟨φ, hφ, rfl⟩
  exact parse_iff_sentence.mpr ⟨p, h ▸ hp, hsentence⟩

theorem exists_run_of_parse (hφ : parse a = .ok φ) (g : Graph) :
    ∃ o, run a g = .ok o ∧
      o.result = if φ.analyze.valid then (φ.evaluate g).toOption else none := by
  have hvalid : φ.analyze.valid = true ↔ φ.analyze.errors = [] := valid_iff_errors φ {}
  obtain ⟨o, ho, -, -, ⟨herrors, r, hr, hresult⟩ | ⟨herrors, hresult⟩⟩ := run_of_parse_ok hφ g
  · refine ⟨o, ho, ?_⟩
    rw [hresult, if_pos (hvalid.mpr herrors), hr]
    rfl
  · refine ⟨o, ho, ?_⟩
    rw [hresult, if_neg (mt hvalid.mp herrors)]

/-- Formulas that differ in places only are answered alike. -/
theorem exists_runs_of_bare (hφ : parse a = .ok φ) (hψ : parse b = .ok ψ)
    (h : φ.bare = ψ.bare) (g : Graph) :
    ∃ o o', run a g = .ok o ∧ run b g = .ok o' ∧ o.result = o'.result := by
  obtain ⟨o, ho, hresult⟩ := exists_run_of_parse hφ g
  obtain ⟨o', ho', hresult'⟩ := exists_run_of_parse hψ g
  have hvalid : φ.analyze.valid = ψ.analyze.valid := (Formula.analyze_sameFindings h).isValid
  refine ⟨o, o', ho, ho', ?_⟩
  rw [hresult, hresult', hvalid, Formula.evaluate_eq_of_bare g h]

end

/-! ## Texts with the same tokens -/

section

variable {a b : String} {ts us : List (Placed Span Token)} {e f : SyntaxError}

theorem values_of_tokenize (h : tokenize a = .ok ts) :
    (values a.toList) ++ [token .endOfInput] = (ts.map (·.value)).map token := by
  obtain ⟨us, hus, rfl⟩ := tokenize_eq_ok_iff.mp h
  rw [closed, List.map_append, List.map_append, ← map_value_ofTokens, ← hus]
  rfl

theorem values_eq_of_tokenize (ha : tokenize a = .ok ts) (hb : tokenize b = .ok us)
    (h : ts.map (·.value) = us.map (·.value)) : values a.toList = values b.toList := by
  refine (List.append_left_inj [token .endOfInput]).mp ?_
  rw [values_of_tokenize ha, values_of_tokenize hb, h]

/-- A text that has tokens and is refused is refused for its syntax. -/
theorem explains_of_parse_error {failure : Failure} (ha : tokenize a = .ok ts)
    (hfailure : parse a = .error failure) : ∃ e, failure = .syntactic e ∧ e.Explains ts := by
  rcases parse_error_cases hfailure with ⟨_, -, hfault⟩ | ⟨e, _, rfl, -⟩
  · rw [hfault] at ha
    cases ha
  · obtain ⟨tokens, htokens, he⟩ := parse_explains hfailure
    cases ha.symm.trans htokens
    exact ⟨e, rfl, he⟩

/-- What formulas could go on with fixes where a text is refused, and with which message. -/
theorem SyntaxError.Explains.agree (he : e.Explains ts) (hf : f.Explains us)
    (h : ts.map (·.value) = us.map (·.value)) :
    e.message = f.message ∧ ∃ (i : Nat) (t u : Placed Span Token),
      ts[i]? = some t ∧ us[i]? = some u ∧ e.place = t.place ∧ f.place = u.place := by
  obtain ⟨i, t, expected, list, hi, hviable, hplace, hsorted, hmem, hlist, hmessage⟩ := he
  obtain ⟨j, u, expected', list', hj, hviable', hplace', hsorted', hmem', hlist', hmessage'⟩ := hf
  have htake (k : Nat) : (ts.take k).map (·.value) = (us.take k).map (·.value) := by
    rw [List.map_take, List.map_take, h]
  have hij : i = j := by
    refine Nat.le_antisymm ((hviable' i).mp ?_) ((hviable j).mp ?_)
    · rw [← htake]
      exact (hviable i).mpr (Nat.le_refl i)
    · rw [htake]
      exact (hviable' j).mpr (Nat.le_refl j)
  subst hij
  have hexpected : expected = expected' := by
    refine hsorted.eq_of_mem_iff hsorted' fun {s} => ?_
    rw [hmem, hmem', htake]
  have hvalue : t.value = u.value := by
    have hget := congrArg (·[i]?) h
    simpa [hi, hj] using hget
  subst hexpected
  refine ⟨?_, i, t, u, hi, hj, hplace, hplace'⟩
  rw [hmessage, hmessage', hlist.unique hlist', hvalue]

/-- **Layout does not matter.** For every two texts with the same tokens, at whatever places: both
are read, as one formula, with the same findings and the same answer on every graph; or both are
refused, with one message and at the same token. -/
theorem run_layout (ha : tokenize a = .ok ts) (hb : tokenize b = .ok us)
    (h : ts.map (·.value) = us.map (·.value)) :
    (∃ φ ψ, parse a = .ok φ ∧ parse b = .ok ψ ∧ φ.bare = ψ.bare ∧
      φ.analyze.SameFindings ψ.analyze ∧
      ∀ g, ∃ o o', run a g = .ok o ∧ run b g = .ok o' ∧ o.result = o'.result) ∨
    ∃ e f, parse a = .error (.syntactic e) ∧ parse b = .error (.syntactic f) ∧
      e.message = f.message ∧ ∃ (i : Nat) (t u : Placed Span Token),
        ts[i]? = some t ∧ us[i]? = some u ∧ e.place = t.place ∧ f.place = u.place := by
  have hvalues := values_eq_of_tokenize ha hb h
  cases hφ : parse a with
  | ok φ =>
    obtain ⟨ψ, hψ, hbare⟩ := parse_of_values hvalues hφ
    exact Or.inl ⟨φ, ψ, rfl, hψ, hbare.symm, Formula.analyze_sameFindings hbare.symm,
      exists_runs_of_bare hφ hψ hbare.symm⟩
  | error failure =>
    obtain ⟨e, rfl, he⟩ := explains_of_parse_error ha hφ
    cases hψ : parse b with
    | ok ψ =>
      obtain ⟨φ, hread, -⟩ := parse_of_values hvalues.symm hψ
      rw [hφ] at hread
      cases hread
    | error failure' =>
      obtain ⟨f, rfl, hf⟩ := explains_of_parse_error hb hψ
      exact Or.inr ⟨e, f, rfl, rfl, he.agree hf h⟩

/-- The same formula with signs and with words, and with other blanks. -/
theorem run_layout_spellings :
    let x : Token := .var ⟨.element, "x"⟩
    let ts : List (Placed Span Token) :=
      [⟨⟨0, 1⟩, .quantifier .universal⟩, ⟨⟨1, 2⟩, x⟩, ⟨⟨3, 4⟩, x⟩, ⟨⟨4, 5⟩, .comparison .unequal⟩,
        ⟨⟨5, 6⟩, x⟩, ⟨⟨6, 6⟩, .endOfInput⟩]
    let us : List (Placed Span Token) :=
      [⟨⟨0, 7⟩, .quantifier .universal⟩, ⟨⟨8, 9⟩, x⟩, ⟨⟨11, 12⟩, x⟩,
        ⟨⟨13, 15⟩, .comparison .unequal⟩, ⟨⟨16, 17⟩, x⟩, ⟨⟨17, 17⟩, .endOfInput⟩]
    tokenize "∀x x≠x" = .ok ts ∧ tokenize "\\forall x  x != x" = .ok us ∧
      ts.map (·.value) = us.map (·.value) ∧
      ∀ g, ∃ o o', run "∀x x≠x" g = .ok o ∧ run "\\forall x  x != x" g = .ok o' ∧
        o.result = o'.result := by
  intro x ts us
  have hts : tokenize "∀x x≠x" = .ok ts := by decide +kernel
  have hus : tokenize "\\forall x  x != x" = .ok us := by decide +kernel
  refine ⟨hts, hus, rfl, ?_⟩
  rcases run_layout hts hus rfl with ⟨φ, ψ, -, -, -, -, hruns⟩ | ⟨e, f, herror, -⟩
  · exact hruns
  · have hread : (parse "∀x x≠x").toOption.isSome = true := by decide +kernel
    rw [herror] at hread
    cases hread

end

end GraphLogic
