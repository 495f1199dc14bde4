import GraphLogic.Variable
import GraphLogic.VertexSet

/-!
# Assignments

An assignment gives values to variables, separately for the two sorts. Bindings nest: each
remembers what the name meant before, and its release brings that back.
-/

namespace GraphLogic

/-- Values for names, at most one for each name. -/
structure Values (α : Type) where
  entries : List (String × α) := []
  deriving DecidableEq, Repr

namespace Values

variable {α : Type}

def get? (t : Values α) (name : String) : Option α := t.entries.lookup name

/-- The entries with `a` as the value of `name`; an old value is replaced where it stands. -/
def putEntry (name : String) (a : α) : List (String × α) → List (String × α)
  | [] => [(name, a)]
  | e :: es => if e.1 = name then (name, a) :: es else e :: putEntry name a es

/-- The entries without the value of `name`. -/
def dropEntry (name : String) : List (String × α) → List (String × α)
  | [] => []
  | e :: es => if e.1 = name then es else e :: dropEntry name es

def put (t : Values α) (name : String) (a : α) : Values α := ⟨putEntry name a t.entries⟩

/-- The values with `old` as the value of `name`, or without one. -/
def restore (t : Values α) (name : String) (old : Option α) : Values α :=
  match old with
  | some a => t.put name a
  | none => ⟨dropEntry name t.entries⟩

theorem lookup_cons (name : String) (e : String × α) (es : List (String × α)) :
    (e :: es).lookup name = if e.1 = name then some e.2 else es.lookup name := by
  obtain ⟨n, a⟩ := e
  rw [List.lookup_cons]
  by_cases h : n = name
  · simp [h]
  · simp [h, beq_eq_false_iff_ne.mpr (Ne.symm h)]

theorem get?_put (t : Values α) (name other : String) (a : α) :
    (t.put name a).get? other = if name = other then some a else t.get? other := by
  obtain ⟨es⟩ := t
  induction es with
  | nil => simp [put, putEntry, get?, lookup_cons]
  | cons e es ih =>
    simp only [put, get?, putEntry] at ih ⊢
    by_cases he : e.1 = name
    · simp only [if_pos he, lookup_cons]
      split <;> simp_all
    · simp only [if_neg he, lookup_cons, ih]
      by_cases ho : e.1 = other
      · simp [ho, show ¬name = other from fun h => he (ho.trans h.symm)]
      · simp [ho]

/-- Binding a name and restoring its old value changes nothing. -/
theorem restore_put (t : Values α) (name : String) (a : α) :
    (t.put name a).restore name (t.get? name) = t := by
  obtain ⟨es⟩ := t
  induction es with
  | nil => simp [put, putEntry, get?, restore, dropEntry]
  | cons e es ih =>
    obtain ⟨n, b⟩ := e
    by_cases h : n = name
    · subst h; simp [put, putEntry, get?, restore]
    · have hget : (Values.mk ((n, b) :: es)).get? name = (Values.mk es).get? name :=
        by simp [get?, lookup_cons, h]
      rw [hget]
      cases hold : (Values.mk es).get? name <;>
        simp_all [put, putEntry, restore, dropEntry]

end Values

/-- The values of the variables of both sorts. -/
structure Assignment where
  elements : Values VertexId := {}
  sets : Values VertexSet := {}
  deriving DecidableEq, Repr

/-- A binding in force: the name, and what it meant before. -/
inductive Binding
  | element (name : String) (old : Option VertexId)
  | set (name : String) (old : Option VertexSet)
  deriving DecidableEq, Repr

namespace Assignment

def isEmpty (s : Assignment) : Bool := s.elements.entries.isEmpty && s.sets.entries.isEmpty

def bindElement (s : Assignment) (name : String) (i : VertexId) : Binding × Assignment :=
  (.element name (s.elements.get? name), { s with elements := s.elements.put name i })

def bindSet (s : Assignment) (name : String) (x : VertexSet) : Binding × Assignment :=
  (.set name (s.sets.get? name), { s with sets := s.sets.put name x })

/-- The assignment with the name of the binding meaning what it meant before. -/
def release (s : Assignment) : Binding → Assignment
  | .element name old => { s with elements := s.elements.restore name old }
  | .set name old => { s with sets := s.sets.restore name old }

theorem release_bindElement (s : Assignment) (name : String) (i : VertexId) :
    (s.bindElement name i).2.release (s.bindElement name i).1 = s := by
  simp [bindElement, release, Values.restore_put]

theorem release_bindSet (s : Assignment) (name : String) (x : VertexSet) :
    (s.bindSet name x).2.release (s.bindSet name x).1 = s := by
  simp [bindSet, release, Values.restore_put]

end Assignment

end GraphLogic
