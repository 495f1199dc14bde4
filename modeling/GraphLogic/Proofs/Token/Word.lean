import GraphLogic.Token.Lexeme
import Mathlib.Data.List.TakeWhile

/-!
# Words

A word is a run of letters with a run of digits behind it, which may be empty. The longest word at
the start of a text (`leadingWord`) is the only one that the next character does not prolong
(`leadingWord_append`, `exists_leadingWord`).

Letters, digits, blanks and signs are classes apart, which is what keeps words apart from their
neighbours.
-/

namespace GraphLogic

/-! ## Classes of characters -/

namespace CharSet

variable {s t : CharSet} {c : Char}

/-- Whether all intervals of the sets lie apart. -/
def apart (s t : CharSet) : Bool :=
  s.intervals.all fun i => t.intervals.all fun j => Nat.blt i.2 j.1 || Nat.blt j.2 i.1

theorem contains_eq_false (hst : s.apart t = true) (hc : s.contains c = true) :
    t.contains c = false := by
  obtain ⟨i, hi, hci⟩ := contains_iff.mp hc
  rw [Bool.eq_false_iff, ne_eq, contains_iff]
  rintro ⟨j, hj, hcj⟩
  have hij := List.all_eq_true.mp (List.all_eq_true.mp hst i hi) j hj
  simp only [Bool.or_eq_true, Nat.blt_eq] at hij
  omega

/-- The set of the given characters. -/
def ofList (cs : List Char) : CharSet := ⟨cs.map fun c => (c.toNat, c.toNat)⟩

theorem contains_ofList {cs : List Char} (hc : c ∈ cs) : (ofList cs).contains c = true :=
  contains_iff.mpr ⟨_, List.mem_map_of_mem hc, Nat.le_refl _, Nat.le_refl _⟩

end CharSet

def digits : CharSet where
  intervals := [(0x30, 0x39)]

theorem contains_digits (c : Char) : digits.contains c = c.isDigit := by
  rw [Bool.eq_iff_iff, CharSet.contains_iff]
  simp only [digits, Char.isDigit, List.mem_singleton, exists_eq_left, Bool.and_eq_true,
    decide_eq_true_eq, ge_iff_le, UInt32.le_iff_toNat_le]
  rfl

variable {c : Char} {t : Token}

/-- The characters that are tokens of their own. -/
def Token.signs : List Char := ['(', ')', ',', '=', '≠', '∃', '∀', '∧', '∨', '→', '↔', '¬']

theorem Token.exists_ofSign?_iff : (∃ t, ofSign? c = some t) ↔ c ∈ signs := by
  unfold ofSign? signs
  split <;> simp_all

/-- The characters other than letters that a lexeme can begin with. -/
def Lexeme.marks : List Char := '\\' :: '!' :: Token.signs

theorem letters_apart : letters.apart blanks = true ∧ letters.apart digits = true ∧
    (CharSet.ofList Lexeme.marks).apart letters = true :=
  ⟨by decide +kernel, by decide +kernel, by decide +kernel⟩

theorem isLetter_of_isAlpha (hc : c.isAlpha = true) : isLetter c = true := by
  refine CharSet.contains_iff.mpr ?_
  rcases Bool.or_eq_true_iff.mp hc with hupper | hlower
  · exact ⟨(0x41, 0x5A), .head _, of_decide_eq_true hupper⟩
  · have hinside : 0x61 ≤ c.toNat ∧ c.toNat ≤ 0x7A :=
      (Bool.and_eq_true_iff.mp hlower).imp of_decide_eq_true of_decide_eq_true
    exact ⟨(0x61, 0x7A), .tail _ (.head _), hinside⟩

theorem not_blank_of_letter (hc : isLetter c = true) : isBlank c = false :=
  CharSet.contains_eq_false letters_apart.1 hc

theorem not_digit_of_letter (hc : isLetter c = true) : c.isDigit = false := by
  rw [← contains_digits]
  exact CharSet.contains_eq_false letters_apart.2.1 hc

theorem not_letter_of_digit (hc : c.isDigit = true) : isLetter c = false := by
  by_contra h
  rw [not_digit_of_letter (Bool.not_eq_false _ ▸ h)] at hc
  exact Bool.false_ne_true hc

theorem not_blank_of_digit (hc : c.isDigit = true) : isBlank c = false := by
  rw [← contains_digits] at hc
  exact CharSet.contains_eq_false (by decide) hc

theorem not_letter_of_mark (hc : c ∈ Lexeme.marks) : isLetter c = false :=
  CharSet.contains_eq_false letters_apart.2.2 (CharSet.contains_ofList hc)

theorem not_blank_of_mark (hc : c ∈ Lexeme.marks) : isBlank c = false :=
  CharSet.contains_eq_false (by decide) (CharSet.contains_ofList hc)

/-! ## Words -/

/-- Letters, at least one, and digits behind them. -/
def IsWord (w : List Char) : Prop :=
  ∃ ls ds, ls ≠ [] ∧ (∀ c ∈ ls, isLetter c = true) ∧ (∀ c ∈ ds, c.isDigit = true) ∧ w = ls ++ ds

/-- With the character `c` behind it the word would be a longer one. -/
def Prolongs (w : List Char) (c : Char) : Prop :=
  c.isDigit = true ∨ isLetter c = true ∧ ∀ d ∈ w, d.isDigit = false

/-- The word ends before `tail`: what stands there does not prolong it. -/
def EndsBefore (w tail : List Char) : Prop := ∀ c ∈ tail.head?, ¬ Prolongs w c

variable {w text tail : List Char}

theorem IsWord.head (hw : IsWord w) : ∃ c rest, w = c :: rest ∧ isLetter c = true := by
  obtain ⟨ls, ds, hne, hls, -, rfl⟩ := hw
  cases ls with
  | nil => exact absurd rfl hne
  | cons c ls => exact ⟨c, ls ++ ds, rfl, hls c List.mem_cons_self⟩

theorem IsWord.not_blank (hw : IsWord w) (hc : c ∈ w) : isBlank c = false := by
  obtain ⟨ls, ds, -, hls, hds, rfl⟩ := hw
  rcases List.mem_append.mp hc with hc | hc
  · exact not_blank_of_letter (hls c hc)
  · exact not_blank_of_digit (hds c hc)

/-- A run that stops at the end of `w` is `w`, and what is dropped with it is the rest. -/
theorem run_append {p : Char → Bool} (hw : ∀ c ∈ w, p c = true)
    (htail : ∀ c ∈ tail.head?, p c = false) :
    (w ++ tail).takeWhile p = w ∧ (w ++ tail).dropWhile p = tail := by
  rw [List.takeWhile_append_of_pos hw, List.dropWhile_append_of_pos hw]
  cases tail with
  | nil => simp
  | cons c tail =>
    have hc : p c = false := htail c rfl
    simp [hc]

theorem leadingWord_append (hw : IsWord w) (htail : EndsBefore w tail) :
    leadingWord (w ++ tail) = w := by
  obtain ⟨ls, ds, hne, hls, hds, rfl⟩ := hw
  have hdigits : ∀ c ∈ tail.head?, c.isDigit = false := by
    intro c hc
    by_contra h
    exact htail c hc (Or.inl (Bool.not_eq_false _ ▸ h))
  have hletters : ∀ c ∈ (ds ++ tail).head?, isLetter c = false := by
    intro c hc
    cases ds with
    | nil =>
      by_contra h
      refine htail c hc (Or.inr ⟨Bool.not_eq_false _ ▸ h, fun d hd => ?_⟩)
      rw [List.append_nil] at hd
      exact not_digit_of_letter (hls d hd)
    | cons d ds =>
      obtain rfl : d = c := Option.some_inj.mp hc
      exact not_letter_of_digit (hds d List.mem_cons_self)
  obtain ⟨htake, hdrop⟩ := run_append hls hletters
  unfold leadingWord
  rw [List.append_assoc, htake, hdrop, (run_append hds hdigits).1]
  cases ls with
  | nil => exact absurd rfl hne
  | cons c ls => rfl

theorem leadingWord_eq_nil_iff : leadingWord text = [] ↔ ∀ c ∈ text.head?, isLetter c = false := by
  unfold leadingWord
  cases text with
  | nil => simp
  | cons c text => cases hc : isLetter c <;> simp [hc]

/-- The leading word ends where the next character does not prolong it. -/
theorem exists_leadingWord (h : leadingWord text ≠ []) :
    IsWord (leadingWord text) ∧
      ∃ tail, text = leadingWord text ++ tail ∧ EndsBefore (leadingWord text) tail := by
  let ls := text.takeWhile isLetter
  let ds := (text.dropWhile isLetter).takeWhile Char.isDigit
  let tail := (text.dropWhile isLetter).dropWhile Char.isDigit
  have hne : ls ≠ [] := by
    intro hls
    refine h ?_
    unfold leadingWord
    rw [show text.takeWhile isLetter = [] from hls]
  have hword : leadingWord text = ls ++ ds := by
    unfold leadingWord
    split
    · rename_i hls
      exact absurd hls hne
    · rfl
  have hletters : ∀ c ∈ ls, isLetter c = true := fun c hc => List.mem_takeWhile_imp hc
  have hdigits : ∀ c ∈ ds, c.isDigit = true := fun c hc => List.mem_takeWhile_imp hc
  have hrest : ds ++ tail = text.dropWhile isLetter := List.takeWhile_append_dropWhile
  rw [hword]
  refine ⟨⟨ls, ds, hne, hletters, hdigits, rfl⟩, tail, ?_, ?_⟩
  · rw [List.append_assoc, hrest, List.takeWhile_append_dropWhile]
  · intro c hc
    have hnotDigit : c.isDigit = false := by
      have := List.head?_dropWhile_not Char.isDigit (text.dropWhile isLetter)
      rwa [show ((text.dropWhile isLetter).dropWhile Char.isDigit).head? = some c from hc] at this
    rintro (hdigit | ⟨hletter, hnone⟩)
    · exact Bool.false_ne_true (hnotDigit.symm.trans hdigit)
    · -- Without digits the word ends where the letters do.
      have hds : ds = [] := by
        rw [List.eq_nil_iff_forall_not_mem]
        intro d hd
        exact Bool.false_ne_true
          ((hnone d (List.mem_append_right _ hd)).symm.trans (hdigits d hd))
      have := List.head?_dropWhile_not isLetter text
      rw [← hrest, hds, List.nil_append, show tail.head? = some c from hc] at this
      exact Bool.false_ne_true (this.symm.trans hletter)

end GraphLogic
