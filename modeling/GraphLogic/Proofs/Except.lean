/-!
# Steps that can fail

What is known of the steps of a computation when its result is known.
-/

namespace GraphLogic

variable {ε δ α β : Type} {x : Except ε α}

/-- The error of a computation that failed. -/
def errorOf? : Except ε α → Option ε
  | .ok _ => none
  | .error e => some e

theorem exists_of_bind_eq_ok {f : α → Except ε β} {b : β} (h : (x >>= f) = .ok b) :
    ∃ a, x = .ok a ∧ f a = .ok b := by
  cases x with
  | error e => cases h
  | ok a => exact ⟨a, rfl, h⟩

theorem error_of_bind {f : α → Except ε β} {e : ε} (h : (x >>= f) = .error e) :
    x = .error e ∨ ∃ a, x = .ok a ∧ f a = .error e := by
  cases x with
  | error e' =>
    cases h
    exact Or.inl rfl
  | ok a => exact Or.inr ⟨a, rfl, h⟩

theorem exists_of_map_eq_ok {f : α → β} {b : β} (h : x.map f = .ok b) :
    ∃ a, x = .ok a ∧ f a = b := by
  cases x with
  | error e => cases h
  | ok a =>
    cases h
    exact ⟨a, rfl, rfl⟩

theorem error_of_map {f : α → β} {e : ε} (h : x.map f = .error e) : x = .error e := by
  cases x with
  | error e' =>
    cases h
    rfl
  | ok a => cases h

theorem ok_of_mapError {f : ε → δ} {a : α} (h : x.mapError f = .ok a) : x = .ok a := by
  cases x with
  | error e => cases h
  | ok a' =>
    cases h
    rfl

theorem exists_of_mapError_eq_error {f : ε → δ} {d : δ} (h : x.mapError f = .error d) :
    ∃ e, x = .error e ∧ f e = d := by
  cases x with
  | error e =>
    cases h
    exact ⟨e, rfl, rfl⟩
  | ok a => cases h

/-- What every step of a loop keeps, the loop keeps, up to the first error. -/
theorem foldlM_invariant {P : α → Prop} {f : α → β → Except ε α}
    (hf : ∀ s t x, P s → f s x = .ok t → P t) {xs : List β} {s t : α} (hs : P s)
    (hok : xs.foldlM f s = .ok t) : P t := by
  induction xs generalizing s with
  | nil =>
    cases hok
    exact hs
  | cons x xs ih =>
    rw [List.foldlM_cons] at hok
    obtain ⟨u, hx, hok⟩ := exists_of_bind_eq_ok hok
    exact ih (hf s u x hs hx) hok

/-- Where every step adds an entry to a list, the loop adds one for each. -/
theorem foldlM_concat {γ : Type} {m : α → List γ} {k : β → γ} {f : α → β → Except ε α}
    (hf : ∀ s t x, f s x = .ok t → m t = m s ++ [k x]) {xs : List β} {s t : α}
    (hok : xs.foldlM f s = .ok t) : m t = m s ++ xs.map k := by
  induction xs generalizing s with
  | nil =>
    cases hok
    exact (List.append_nil _).symm
  | cons x xs ih =>
    rw [List.foldlM_cons] at hok
    obtain ⟨u, hx, hok⟩ := exists_of_bind_eq_ok hok
    rw [ih hok, hf s u x hx, List.append_assoc, List.singleton_append, List.map_cons]

/-- A loop that fails has a first step that fails. -/
theorem foldlM_eq_error_iff {f : α → β → Except ε α} {xs : List β} {s : α} {e : ε} :
    xs.foldlM f s = .error e ↔
      ∃ ys x zs t, xs = ys ++ x :: zs ∧ ys.foldlM f s = .ok t ∧ f t x = .error e := by
  constructor
  · intro hfail
    induction xs generalizing s with
    | nil => cases hfail
    | cons x xs ih =>
      rw [List.foldlM_cons] at hfail
      obtain hx | ⟨u, hx, hfail⟩ := error_of_bind hfail
      · exact ⟨[], x, xs, s, rfl, rfl, hx⟩
      · obtain ⟨ys, y, zs, t, rfl, hys, hy⟩ := ih hfail
        refine ⟨x :: ys, y, zs, t, rfl, ?_, hy⟩
        rw [List.foldlM_cons, hx]
        exact hys
  · rintro ⟨ys, x, zs, t, rfl, hys, hx⟩
    rw [List.foldlM_append, hys]
    show (x :: zs).foldlM f t = _
    rw [List.foldlM_cons, hx]
    rfl

/-- Running a step and what follows it, where steps change a state and can fail. -/
theorem run_bind {σ : Type} (m : ExceptT ε (StateM σ) α) (f : α → ExceptT ε (StateM σ) β)
    (s : σ) :
    StateT.run (ExceptT.run (m >>= f)) s =
      match StateT.run (ExceptT.run m) s with
      | (.ok a, t) => StateT.run (ExceptT.run (f a)) t
      | (.error e, t) => (.error e, t) := by
  rw [ExceptT.run_bind, StateT.run_bind]
  generalize StateT.run (ExceptT.run m) s = result
  obtain ⟨r, t⟩ := result
  cases r <;> rfl

end GraphLogic
