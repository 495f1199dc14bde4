import GraphLogic.Toml.Value

/-!
# Filling tables

Entries are added to tables by dotted keys and by headers. No key is given twice, a table has at
most one header, and a table opened by a header or in braces is not extended by dotted keys.
-/

namespace GraphLogic.Toml

abbrev Entries := List (String × Toml)

namespace Entries

/-- The entries with another value for `key`, where it stands. -/
def replace (es : Entries) (key : String) (v : Toml) : Entries :=
  es.map fun e => if e.1 = key then (key, v) else e

/-- Changes the table at the end of a path and opens the missing tables on the way. The table that
the path starts from has the given origin. -/
def alterAt {α : Type} (opened : Origin) (change : Origin → Entries → Option (α × Entries)) :
    List String → Origin → Entries → Option (α × Entries)
  | [], origin, es => change origin es
  | key :: path, _, es =>
    match es.lookup key with
    | none => do
      let (a, inner) ← alterAt opened change path opened []
      return (a, es ++ [(key, .table opened inner)])
    | some (.table origin inner) =>
      if origin = .braces ∨ (opened = .dotted ∧ origin = .header) then none
      else do
        let (a, inner) ← alterAt opened change path origin inner
        return (a, es.replace key (.table origin inner))
    | some (.tables items) =>
      match items.getLast? with
      | some (.table origin inner) => do
        let (a, inner) ← alterAt opened change path origin inner
        return (a, es.replace key (.tables (items.dropLast ++ [.table origin inner])))
      | _ => none
    | some _ => none

/-- The entries with one more, `v` at the key at the end of a dotted path. -/
def add (es : Entries) (path : List String) (key : String) (v : Toml) : Option Entries := do
  let place (origin : Origin) (inner : Entries) : Option (Unit × Entries) :=
    if (origin == .dotted) == path.isEmpty || (inner.lookup key).isSome then none
    else some ((), inner ++ [(key, v)])
  let (_, es) ← alterAt .dotted place path .header es
  return es

/-- The entries without the table of a header, and what that table holds already. Only a table that
was opened on the way to others can hold something. -/
def takeTable (es : Entries) (path : List String) (key : String) : Option (Entries × Entries) :=
  let take (_ : Origin) (inner : Entries) : Option (Entries × Entries) :=
    match inner.lookup key with
    | none => some ([], inner)
    | some (.table .implied held) => some (held, inner.filter fun e => e.1 != key)
    | some _ => none
  alterAt .implied take path .header es

/-- The entries with the table of a header. -/
def putTable (es : Entries) (path : List String) (key : String) (held : Entries) :
    Option Entries := do
  let put (_ : Origin) (inner : Entries) : Option (Unit × Entries) :=
    some ((), inner ++ [(key, .table .header held)])
  let (_, es) ← alterAt .implied put path .header es
  return es

/-- The entries with the array of tables of a header, which has one table more if one is given. -/
def pushTable (es : Entries) (path : List String) (key : String) (held : Option Entries) :
    Option Entries := do
  let more := held.toList.map fun es => Toml.table .header es
  let push (_ : Origin) (inner : Entries) : Option (Unit × Entries) :=
    match inner.lookup key with
    | none => some ((), inner ++ [(key, .tables more)])
    | some (.tables items) => some ((), Entries.replace inner key (.tables (items ++ more)))
    | some _ => none
  let (_, es) ← alterAt .implied push path .header es
  return es

end Entries

end GraphLogic.Toml
