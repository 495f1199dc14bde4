import GraphLogic.CommandLine
import GraphLogic.Proofs.Layout
import GraphLogic.Proofs.Token.Blank

/-!
# Conversations and single checks

**Theorem (`converse_agrees`).** A formula gets the same verdict in a conversation as when it is
checked alone, whatever was said before; and nothing behind the end of the conversation is answered.

In a conversation a formula is checked without the blanks at its ends. They make no difference to
the lexemes (`Lexeme.values_trim`), and on texts with the same lexemes a session has the same
verdict (`Session.check_of_values`), although its reports on them can show other places. A
conversation keeps no state: what was said before is answered before (`Session.converse_append`).
-/

namespace GraphLogic

open Lexeme

/-! ## Outputs -/

namespace Output

theorem out_append (a b : Output) : (a ++ b).out = a.out ++ b.out := rfl

theorem empty_append (a : Output) : ({} : Output) ++ a = a :=
  congrArg₂ Output.mk (String.empty_append ..) (String.empty_append ..)

theorem append_empty (a : Output) : a ++ ({} : Output) = a :=
  congrArg₂ Output.mk (String.append_empty ..) (String.append_empty ..)

theorem append_assoc (a b c : Output) : a ++ b ++ c = a ++ (b ++ c) :=
  congrArg₂ Output.mk (String.append_assoc ..) (String.append_assoc ..)

end Output

namespace Session

variable {s t : Session} {a b line source : String} {before after : List String}

/-! ## Verdicts -/

theorem check_of_run_ok {o : Outcome} (h : run source s.graph = .ok o) :
    (s.check source).1 = o.result.isSome ∧
      (s.check source).2.out = (o.result.map fun holds => toString holds ++ "\n").getD "" := by
  unfold check
  rw [h]
  cases hresult : o.result <;> simp [hresult]

theorem check_of_run_error {f : Failure} (h : run source s.graph = .error f) :
    (s.check source).1 = false ∧ (s.check source).2.out = "" := by
  unfold check
  rw [h]
  cases hdiagnostic : f.diagnostic? <;> simp [hdiagnostic]

/-- What is accepted is answered with one word in a line, and what is not, with nothing. -/
theorem check_out (s : Session) (source : String) :
    (s.check source).1 = true ∧
        ((s.check source).2.out = "true\n" ∨ (s.check source).2.out = "false\n") ∨
      (s.check source).1 = false ∧ (s.check source).2.out = "" := by
  cases hrun : run source s.graph with
  | error f => exact Or.inr (check_of_run_error hrun)
  | ok o =>
    obtain ⟨haccepted, hout⟩ := check_of_run_ok hrun
    rw [haccepted, hout]
    match o.result with
    | none => exact Or.inr ⟨rfl, rfl⟩
    | some true => exact Or.inl ⟨rfl, Or.inl rfl⟩
    | some false => exact Or.inl ⟨rfl, Or.inr rfl⟩

/-- Texts with the same lexemes get the same verdict on the same graph. -/
theorem check_of_values (hgraph : s.graph = t.graph) (h : values a.toList = values b.toList) :
    (s.check a).1 = (t.check b).1 ∧ (s.check a).2.out = (t.check b).2.out := by
  cases hφ : parse a with
  | ok φ =>
    obtain ⟨ψ, hψ, hbare⟩ := parse_of_values h hφ
    obtain ⟨o, o', ho, ho', hresult⟩ := exists_runs_of_bare hφ hψ hbare.symm s.graph
    obtain ⟨haccepted, hout⟩ := check_of_run_ok ho
    obtain ⟨haccepted', hout'⟩ := check_of_run_ok (hgraph ▸ ho')
    rw [haccepted, haccepted', hout, hout', hresult]
    exact ⟨rfl, rfl⟩
  | error f =>
    cases hψ : parse b with
    | ok ψ =>
      obtain ⟨φ, hread, -⟩ := parse_of_values h.symm hψ
      rw [hφ] at hread
      cases hread
    | error f' =>
      obtain ⟨haccepted, hout⟩ := check_of_run_error (run_of_parse_error hφ s.graph)
      obtain ⟨haccepted', hout'⟩ := check_of_run_error (run_of_parse_error hψ t.graph)
      rw [haccepted, haccepted', hout, hout']
      exact ⟨rfl, rfl⟩

/-! ## Requests -/

/-- The line ends the conversation. -/
def Quits (line : String) : Prop := String.ofList (trim line.toList) ∈ [":quit", ":q"]

instance (line : String) : Decidable (Quits line) := inferInstanceAs (Decidable (_ ∈ _))

/-- The line holds a formula: something that is no command. -/
def HoldsFormula (line : String) : Prop :=
  trim line.toList ≠ [] ∧ (trim line.toList).head? ≠ some ':'

instance (line : String) : Decidable (HoldsFormula line) := inferInstanceAs (Decidable (_ ∧ _))

theorem ofLine_eq_quit_iff : Request.ofLine line = .quit ↔ Quits line := by
  unfold Request.ofLine Quits
  generalize trim line.toList = text
  dsimp only
  split <;> simp_all
  split <;> simp

theorem ofLine_of_holdsFormula (h : HoldsFormula line) :
    Request.ofLine line = .check (String.ofList (trim line.toList)) := by
  obtain ⟨hne, hhead⟩ := h
  unfold Request.ofLine
  generalize trim line.toList = text at *
  have hcommand (command : List Char) (heq : String.ofList text = String.ofList command) :
      command ≠ [] ∧ command.head? ≠ some ':' := by
    rw [String.ofList_inj.mp heq] at hne hhead
    exact ⟨hne, hhead⟩
  dsimp only
  split
  · next heq => exact absurd rfl (hcommand [] heq).1
  · next heq => exact absurd rfl (hcommand ":quit".toList heq).2
  · next heq => exact absurd rfl (hcommand ":q".toList heq).2
  · next heq => exact absurd rfl (hcommand ":help".toList heq).2
  · next heq => exact absurd rfl (hcommand ":h".toList heq).2
  · next heq => exact absurd rfl (hcommand ":graph".toList heq).2
  · exact if_neg hhead

theorem answer?_eq_none_iff : s.answer? line = none ↔ Quits line := by
  rw [← ofLine_eq_quit_iff]
  unfold answer?
  cases hrequest : Request.ofLine line <;> simp

/-! ## Conversations -/

theorem converse_cons {output : Output} (h : s.answer? line = some output) :
    s.converse (line :: after) = output ++ s.converse after := by
  rw [converse, h]

theorem converse_quit (h : Quits line) : s.converse (line :: after) = {} := by
  rw [converse, answer?_eq_none_iff.mpr h]

/-- What is said behind some lines is answered behind their answers, and in the same way. -/
theorem converse_append (hbefore : ∀ l ∈ before, ¬ Quits l) :
    s.converse (before ++ after) = s.converse before ++ s.converse after := by
  induction before with
  | nil => exact (Output.empty_append _).symm
  | cons l before ih =>
    obtain ⟨hl, hbefore⟩ := List.forall_mem_cons.mp hbefore
    obtain ⟨output, houtput⟩ := Option.ne_none_iff_exists'.mp (mt answer?_eq_none_iff.mp hl)
    rw [List.cons_append, converse_cons houtput, converse_cons houtput, ih hbefore,
      Output.append_assoc]

theorem converse_formula (h : HoldsFormula line) :
    s.converse (line :: after) =
      (s.check (String.ofList (trim line.toList))).2 ++ s.converse after := by
  refine converse_cons ?_
  unfold answer?
  rw [ofLine_of_holdsFormula h]

end Session

/-! ## Whole programs -/

namespace CommandLine

/-- The graph of a session does not depend on whether reports are coloured. -/
theorem exists_session_color {o : Options} {contents : Except String String} {s : Session}
    (h : session o contents = .ok s) (color : Bool) (formula : Option String) :
    ∃ t : Session, session { o with color, formula } contents = .ok t ∧ s.graph = t.graph := by
  obtain ⟨config, hconfig, h⟩ := exists_of_bind_eq_ok h
  obtain ⟨graph, hgraph, h⟩ := exists_of_bind_eq_ok h
  cases h
  refine ⟨{ graph, color := config.color && color }, ?_, rfl⟩
  unfold session
  rw [hconfig]
  show (config.build.mapError _ >>= _) = _
  rw [hgraph]
  rfl

theorem Course.ofOptions_of_session {o : Options} {contents : Except String String} {s : Session}
    (h : session o contents = .ok s) :
    ofOptions o contents =
      match o.formula with
      | some formula => .finish (if (s.check formula).1 then 0 else 1) (s.check formula).2
      | none => .converse s := by
  unfold ofOptions
  generalize session o contents = result at h
  subst h
  cases o.formula <;> rfl

end CommandLine

open CommandLine Session

/-- **Conversations and single checks agree.** Let a line be said before the conversation has ended.
If it ends the conversation, it is not answered, and nothing behind it is. If it holds a formula, it
is answered behind what was said before and ahead of what is said later, and the formula is accepted
just when the line, checked alone on the same graph, is accepted, with the same word on the standard
output. The program converses if it is given no formula, and checks the formula alone if it is given
one, with and without colours. -/
theorem converse_agrees (s : Session) (line : String) {before : List String} (after : List String)
    (hbefore : ∀ l ∈ before, ¬ Quits l) :
    (Quits line → s.converse (before ++ line :: after) = s.converse before) ∧
    (HoldsFormula line → ∃ source, Request.ofLine line = .check source ∧
      s.converse (before ++ line :: after) =
        s.converse before ++ (s.check source).2 ++ s.converse after ∧
      ∀ t : Session, s.graph = t.graph →
        (s.check source).1 = (t.check line).1 ∧
        (s.check source).2.out = (t.check line).2.out) ∧
    (((s.check line).1 = true ∧
        ((s.check line).2.out = "true\n" ∨ (s.check line).2.out = "false\n")) ∨
      (s.check line).1 = false ∧ (s.check line).2.out = "") ∧
    ∀ o contents, session o contents = .ok s →
      Course.ofOptions { o with formula := none } contents = .converse s ∧
      ∀ color, ∃ t : Session, s.graph = t.graph ∧
        Course.ofOptions { o with formula := some line, color } contents =
          .finish (if (t.check line).1 then 0 else 1) (t.check line).2 := by
  refine ⟨?_, ?_, s.check_out line, ?_⟩
  · intro hquits
    rw [converse_append hbefore, converse_quit hquits, Output.append_empty]
  · intro hformula
    refine ⟨_, ofLine_of_holdsFormula hformula, ?_, fun t hgraph => ?_⟩
    · rw [converse_append hbefore, converse_formula hformula, Output.append_assoc]
    · refine check_of_values hgraph ?_
      rw [String.toList_ofList, values_trim]
  · intro o contents hs
    refine ⟨Course.ofOptions_of_session (o := { o with formula := none }) hs, fun color => ?_⟩
    obtain ⟨t, ht, hgraph⟩ := exists_session_color hs color (some line)
    exact ⟨t, hgraph, Course.ofOptions_of_session ht⟩

/-- A formula in blanks, behind a rejected formula, an unknown command and an empty line. -/
theorem converse_agrees_blanks :
    let s : Session := { graph := Graph.edgeless 2, color := false }
    let before := ["x = y", " :list", "", "∃x∃y x≠y"]
    let line := "\t∀x∀y x=y "
    (∀ l ∈ before, ¬ Quits l) ∧ HoldsFormula line ∧
      (s.converse (before ++ line :: [":q", "∀x x=x"])).out = "true\nfalse\n" ∧
      (s.check line).1 = true ∧ (s.check line).2.out = "false\n" := by
  intro s before line
  have hbefore : ∀ l ∈ before, ¬ Quits l := by decide +kernel
  have hline : HoldsFormula line := by decide +kernel
  obtain ⟨-, hformula, -, -⟩ := converse_agrees s line [":q", "∀x x=x"] hbefore
  obtain ⟨source, -, hconverse, hsame⟩ := hformula hline
  obtain ⟨-, hout⟩ := hsame s rfl
  have hafter : s.converse [":q", "∀x x=x"] = {} := converse_quit (by decide +kernel)
  have hanswers : (s.converse before).out = "true\n" := by decide +kernel
  have hcheck : (s.check line).1 = true ∧ (s.check line).2.out = "false\n" := by decide +kernel
  refine ⟨hbefore, hline, ?_, hcheck⟩
  rw [hconverse, hafter, Output.append_empty, Output.out_append, hanswers, hout, hcheck.2]
  rfl

end GraphLogic
