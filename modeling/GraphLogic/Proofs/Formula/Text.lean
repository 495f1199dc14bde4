import GraphLogic.Pipeline
import GraphLogic.Proofs.Formula.Reading
import GraphLogic.Proofs.Token.Munch

/-!
# Texts of formulas

**Theorem (`parse_iff_sentence`).** A text is read as a formula exactly when its lexemes are the
tokens of a sentence of the grammar.

Reading ignores the places of the lexemes, so that only their values matter (`Lexeme.values`). The
values of a text do not depend on where it starts; a text can be taken apart lexeme by lexeme
(`values_of_leads`).

**Theorem (`wellFormed_of_parse`).** A formula that is read from a text is well-formed: its names
are words, spelled as their sorts demand, and its relations have arguments.
-/

namespace GraphLogic

/-! ## Lexemes without places -/

namespace Lexeme

variable {start : Nat} {c : Char} {w tail text : List Char} {l : Lexeme} {t : Token}
  {ls : List (Placed Span Lexeme)}

/-- The lexemes of a text without their places. -/
def values (text : List Char) : List Lexeme := (scan 0 text).map (·.value)

theorem map_value_scan (start : Nat) (text : List Char) :
    (scan start text).map (·.value) = values text := by
  rw [← Nat.zero_add start, scan_add, List.map_map]
  rfl

@[simp] theorem values_nil : values [] = [] := by
  rw [values, scan]
  rfl

theorem values_blank (hc : isBlank c = true) (text : List Char) :
    values (c :: text) = values text := by
  rw [values, scan, if_pos hc, map_value_scan]

theorem values_of_leads (h : Leads l w tail) : values (w ++ tail) = l :: values tail := by
  rw [values, scan_of_leads h, List.map_cons, map_value_scan]

theorem exists_ofTokens {p : List Token} (h : ls.map (·.value) = p.map token) :
    ∃ ts, ls = ofTokens ts ∧ ts.map (·.value) = p := by
  induction p generalizing ls with
  | nil => exact ⟨[], List.map_eq_nil_iff.mp h, rfl⟩
  | cons t p ih =>
    obtain ⟨⟨place, _⟩, ls, rfl, rfl, hls⟩ := List.map_eq_cons_iff.mp h
    obtain ⟨ts, rfl, rfl⟩ := ih hls
    exact ⟨⟨place, t⟩ :: ts, rfl, rfl⟩

theorem map_value_ofTokens (ts : List (Placed Span Token)) :
    (ofTokens ts).map (·.value) = (ts.map (·.value)).map token := by
  rw [ofTokens, List.map_map, List.map_map]
  rfl

end Lexeme

open Lexeme

/-! ## Sentences as texts -/

variable {source : String}

theorem parse_eq_ok_iff {φ : Formula Span} :
    parse source = .ok φ ↔
      ∃ ts, tokenize source = .ok ts ∧ (Cursor.ofTokens ts).formula = .ok φ := by
  constructor
  · intro h
    obtain ⟨c, hc, hφ⟩ := exists_of_bind_eq_ok h
    obtain ⟨ts, hts, rfl⟩ := exists_of_map_eq_ok (ok_of_mapError hc)
    exact ⟨ts, hts, ok_of_mapError hφ⟩
  · rintro ⟨ts, hts, hφ⟩
    unfold parse Cursor.ofSource
    rw [hts]
    show (Cursor.ofTokens ts).formula.mapError _ = _
    rw [hφ]
    rfl

/-- A text is refused for its first fault, or, if it has tokens, for what they make up. -/
theorem parse_error_cases {failure : Failure} (h : parse source = .error failure) :
    (∃ fault, failure = .lexical fault ∧ tokenize source = .error fault) ∨
      ∃ e ts, failure = .syntactic e ∧ tokenize source = .ok ts ∧
        (Cursor.ofTokens ts).formula = .error e := by
  rcases error_of_bind h with h | ⟨cursor, hcursor, h⟩
  · obtain ⟨fault, hfault, rfl⟩ := exists_of_mapError_eq_error h
    exact Or.inl ⟨fault, rfl, error_of_map hfault⟩
  · obtain ⟨ts, hts, rfl⟩ := exists_of_map_eq_ok (ok_of_mapError hcursor)
    obtain ⟨e, he, rfl⟩ := exists_of_mapError_eq_error h
    exact Or.inr ⟨e, ts, rfl, hts, he⟩

theorem beforeEnd_closed {us : List (Placed Span Token)} (hus : Munched source us) (n : Nat) :
    beforeEnd (closed n us) = us := beforeEnd_append hus.not_end rfl []

/-- **A text is read as a formula just when it spells a sentence.** -/
theorem parse_iff_sentence {φ : Formula Unit} :
    (∃ ψ, parse source = .ok ψ ∧ ψ.bare = φ) ↔
      ∃ p, values source.toList = p.map token ∧ Sentence .formula p φ := by
  constructor
  · rintro ⟨ψ, hψ, rfl⟩
    obtain ⟨ts, hts, hread⟩ := parse_eq_ok_iff.mp hψ
    obtain ⟨us, hus, rfl⟩ := tokenize_eq_ok_iff.mp hts
    have hsentence := sentence_of_formula_eq_ok hread
    rw [beforeEnd_closed (munched_of_lexemes hus)] at hsentence
    refine ⟨us.map (·.value), ?_, hsentence⟩
    rw [← map_value_ofTokens, ← hus]
    rfl
  · rintro ⟨p, hp, hφ⟩
    obtain ⟨us, hus, husp⟩ := exists_ofTokens hp
    have hclosed := beforeEnd_closed (munched_of_lexemes hus) source.toList.length
    obtain ⟨ψ, rfl, hsteps⟩ := hφ.steps (r := {}) ⟨rfl, rfl⟩ husp
    refine ⟨ψ, parse_eq_ok_iff.mpr ⟨_, tokenize_eq_ok_iff.mpr ⟨us, hus, rfl⟩, ?_⟩, rfl⟩
    exact (Cursor.formula_eq_ok_iff _).mpr ⟨_, by rw [hclosed]; exact hsteps, rfl⟩

/-! ## Well-formed formulas -/

/-- The name starts with a lowercase letter. -/
def StartsLowercase (name : String) : Prop := ∃ c ∈ name.toList.head?, isLowercase c = true

/-- The name is a word with the initial that its sort demands; `E` names no variable. -/
def Variable.WellNamed : Variable → Prop
  | ⟨.element, name⟩ => IsWord name.toList ∧ StartsLowercase name
  | ⟨.set, name⟩ => IsWord name.toList ∧ ¬ StartsLowercase name ∧ name ≠ "E"

/-- A set variable as a relation is well named. -/
def Relation.WellNamed : Relation → Prop
  | edge => True
  | set name => Variable.WellNamed ⟨.set, name⟩

/-- All names are well formed, and all relations have arguments. -/
def Formula.WellFormed {σ : Type} : Formula σ → Prop
  | quantified _ _ x φ => x.value.WellNamed ∧ φ.WellFormed
  | binary _ _ φ ψ => φ.WellFormed ∧ ψ.WellFormed
  | negation _ _ φ => φ.WellFormed
  | comparison _ _ x y => x.value.WellNamed ∧ y.value.WellNamed
  | relation _ r xs => r.value.WellNamed ∧ xs ≠ [] ∧ ∀ x ∈ xs, x.value.WellNamed

variable {x : Variable}

theorem VarSort.ofName_eq_element_iff {name : String} :
    ofName name = .element ↔ StartsLowercase name := by
  unfold ofName StartsLowercase
  cases name.toList <;> simp

theorem VarSort.ofName_eq_set_iff {name : String} :
    ofName name = .set ↔ ¬ StartsLowercase name := by
  rw [← ofName_eq_element_iff]
  cases ofName name <;> simp

theorem Token.ofName_eq_var_iff {name : String} :
    ofName name = .var x ↔ name ≠ "E" ∧ Variable.ofName name = x := by
  unfold ofName
  by_cases hname : name = "E"
  · simp [hname]
  · simp [hname]

theorem startsLowercase_ne {name : String} (h : StartsLowercase name) : name ≠ "E" := by
  rintro rfl
  obtain ⟨c, hc, hlow⟩ := h
  obtain rfl : 'E' = c := Option.some_inj.mp hc
  exact absurd hlow (by decide +kernel)

/-- A variable is well named if the lexer reads its name as this variable. -/
theorem Variable.wellNamed_iff :
    x.WellNamed ↔ IsWord x.name.toList ∧ Token.ofName x.name = .var x := by
  obtain ⟨sort, name⟩ := x
  rw [Token.ofName_eq_var_iff, Variable.ofName, Variable.mk.injEq, and_iff_left rfl]
  cases sort with
  | element =>
    rw [VarSort.ofName_eq_element_iff]
    exact ⟨fun ⟨hw, hlow⟩ => ⟨hw, startsLowercase_ne hlow, hlow⟩, fun ⟨hw, _, hlow⟩ => ⟨hw, hlow⟩⟩
  | set =>
    rw [VarSort.ofName_eq_set_iff]
    exact and_congr_right fun _ => and_comm

/-- If the token is a variable, it is well named. -/
def Token.WellNamed : Token → Prop
  | var x => x.WellNamed
  | _ => True

theorem Lexeme.Leads.wellNamed {t : Token} {w tail : List Char} (h : Leads (.token t) w tail) :
    t.WellNamed := by
  cases t with
  | var x =>
    rcases h.isFixed_or_name with hfixed | ⟨hw, hname⟩
    · exact absurd hfixed id
    · have hx := congrArg Variable.name (Token.ofName_eq_var_iff.mp hname.symm).2
      refine Variable.wellNamed_iff.mpr ⟨?_, ?_⟩
      · rwa [← hx, Variable.ofName, String.toList_ofList]
      · rw [← hx, hname]
        rfl
  | _ => trivial

theorem mem_varList {x : Variable} {xs : List Variable} (hx : x ∈ xs) : .var x ∈ varList xs := by
  cases xs with
  | nil => cases hx
  | cons y ys =>
    rcases List.mem_cons.mp hx with rfl | hx
    · exact List.mem_cons_self
    · refine List.mem_cons_of_mem _ (List.mem_flatMap.mpr ⟨x, hx, ?_⟩)
      exact List.mem_cons_of_mem _ List.mem_cons_self

theorem Sentence.wellFormed {c : Category} {p : List Token} {φ : Formula Unit}
    (h : Sentence c p φ) (hp : ∀ t ∈ p, t.WellNamed) : φ.WellFormed := by
  induction h with
  | operand _ ih => exact ih hp
  | connected _ _ ihφ ihψ =>
    refine ⟨ihφ fun t ht => hp t ?_, ihψ fun t ht => hp t ?_⟩
    · exact List.mem_append_left _ ht
    · exact List.mem_append_right _ (List.mem_cons_of_mem _ ht)
  | negated _ ih => exact ih fun t ht => hp t (List.mem_cons_of_mem _ ht)
  | unnegated _ ih => exact ih hp
  | @bound p φ q x _ ih =>
    refine ⟨hp (.var x) ?_, ih fun t ht => hp t ?_⟩
    · exact List.mem_cons_of_mem _ List.mem_cons_self
    · exact List.mem_cons_of_mem _ (List.mem_cons_of_mem _ ht)
  | @related r xs hne =>
    refine ⟨?_, by simpa using hne, fun x hx => ?_⟩
    · cases r with
      | edge => trivial
      | set name => exact hp _ List.mem_cons_self
    · obtain ⟨y, hy, rfl⟩ := List.mem_map.mp hx
      refine hp (.var y) (List.mem_cons_of_mem _ (List.mem_cons_of_mem _ ?_))
      exact List.mem_append_left _ (mem_varList hy)
  | @compared x y o => exact ⟨hp (.var x) (by simp), hp (.var y) (by simp)⟩
  | parenthesized _ ih =>
    exact ih fun t ht => hp t (List.mem_cons_of_mem _ (List.mem_append_left _ ht))

/-- Places do not matter to the form. -/
theorem Formula.wellFormed_bare {σ : Type} {φ : Formula σ} : φ.bare.WellFormed ↔ φ.WellFormed := by
  induction φ with
  | quantified p q x φ ih => exact and_congr_right fun _ => ih
  | binary p c φ ψ ihφ ihψ => exact and_congr ihφ ihψ
  | negation p sign φ ih => exact ih
  | comparison p o x y => exact Iff.rfl
  | relation p r xs =>
    refine and_congr_right fun _ => and_congr ?_ ?_
    · rw [ne_eq, List.map_eq_nil_iff]
    · exact List.forall_mem_map

theorem wellFormed_of_parse {φ : Formula Span} (h : parse source = .ok φ) : φ.WellFormed := by
  rw [← Formula.wellFormed_bare]
  obtain ⟨p, hp, hφ⟩ := parse_iff_sentence.mp ⟨φ, h, rfl⟩
  obtain ⟨us, hus, rfl⟩ := exists_ofTokens hp
  refine hφ.wellFormed fun t ht => ?_
  obtain ⟨u, hu, rfl⟩ := List.mem_map.mp ht
  have hmem : ⟨u.place, token u.value⟩ ∈ ofTokens us := mem_ofTokens hu
  rw [← hus] at hmem
  have hleads := (leads_of_mem hmem).1
  exact hleads.wellNamed

end GraphLogic
