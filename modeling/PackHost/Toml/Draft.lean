import PackHost.Toml.Value

/-!
# Tables under construction

While a configuration file is read, a table remembers how it came to be: by a header of its own, as
a table on the way to a header below it, or by a dotted key. Headers may complete only tables of the
second sort, and dotted keys may extend only tables of the last two. A value never changes.
-/

namespace PackHost.Toml

inductive Origin where
  | header
  | implied
  | dotted
deriving DecidableEq, Repr

/-- What a key of a table under construction holds. -/
inductive Item where
  | value (v : Value)
  | table (origin : Origin) (entries : List (String × Item))
  | tables (items : List (List (String × Item)))

/-- The entries of a table under construction, in the order of the file. -/
abbrev Entries := List (String × Item)

namespace Entries

def replace (key : String) (i : Item) (es : Entries) : Entries :=
  es.map fun e => if e.1 = key then (key, i) else e

def erase (key : String) (es : Entries) : Entries := es.filter fun e => e.1 ≠ key

/-- Changes the table at the end of a path. Tables that are missing on the way are made with the
given origin; a repeated header stands for its last table. -/
def descend {α : Type} (origin : Origin) (change : Origin → Entries → Option (α × Entries)) :
    List String → Origin → Entries → Option (α × Entries)
  | [], here, es => change here es
  | key :: path, _, es =>
    match es.lookup key with
    | none =>
      (descend origin change path origin []).map fun r =>
        (r.1, es ++ [(key, .table origin r.2)])
    | some (.value _) => none
    | some (.table o inner) =>
      if origin = .dotted ∧ o = .header then none
      else (descend origin change path o inner).map fun r => (r.1, es.replace key (.table o r.2))
    | some (.tables items) =>
      match items.getLast? with
      | none => none
      | some last =>
        (descend origin change path .header last).map fun r =>
          (r.1, es.replace key (.tables (items.dropLast ++ [r.2])))

/-- The entries with a value under a dotted key, which must be new. -/
def define (path : List String) (key : String) (v : Value) (es : Entries) : Option Entries :=
  let add (here : Origin) (es : Entries) : Option (Unit × Entries) :=
    if (here == .dotted) = path.isEmpty ∨ (es.lookup key).isSome then none
    else some ((), es ++ [(key, .value v)])
  (descend .dotted add path .header es).map Prod.snd

mutual

def sealItem : Item → Value
  | .value v => v
  | .table _ es => .table (sealEntries es)
  | .tables items => .array (sealTables items)

def sealEntries : List (String × Item) → List (String × Value)
  | [] => []
  | e :: es => (e.1, sealItem e.2) :: sealEntries es

def sealTables : List (List (String × Item)) → List Value
  | [] => []
  | t :: ts => .table (sealEntries t) :: sealTables ts

end

end Entries

structure Draft where
  root : Entries
  current : Entries
  /-- The keys of its header and whether the header may be repeated; none before the first
  header. -/
  place : Option (List String × String × Bool)

namespace Draft

def empty : Draft := ⟨[], [], none⟩

def finish (d : Draft) : Option Entries :=
  match d.place with
  | none => some d.current
  | some (path, key, repeated) =>
    let add (_ : Origin) (es : Entries) : Option (Unit × Entries) :=
      match es.lookup key, repeated with
      | none, false => some ((), es ++ [(key, .table .header d.current)])
      | some (.tables items), true =>
        some ((), es.replace key (.tables (items ++ [d.current])))
      | _, _ => none
    (Entries.descend .implied add path .header d.root).map Prod.snd

/-- Begins a table with the given header. A table that is only implied is taken up again and moves
to the end. -/
def beginTable (path : List String) (key : String) (d : Draft) : Option Draft := do
  let root ← d.finish
  let take (_ : Origin) (es : Entries) : Option (Entries × Entries) :=
    match es.lookup key with
    | none => some ([], es)
    | some (.table .implied inner) => some (inner, es.erase key)
    | some _ => none
  let (current, root) ← Entries.descend .implied take path .header root
  return ⟨root, current, some (path, key, false)⟩

def beginRepeated (path : List String) (key : String) (d : Draft) : Option Draft := do
  let root ← d.finish
  let open_ (_ : Origin) (es : Entries) : Option (Unit × Entries) :=
    match es.lookup key with
    | none => some ((), es ++ [(key, .tables [])])
    | some (.tables _) => some ((), es)
    | some _ => none
  let (_, root) ← Entries.descend .implied open_ path .header root
  return ⟨root, [], some (path, key, true)⟩

def define (path : List String) (key : String) (v : Value) (d : Draft) : Option Draft := do
  let current ← d.current.define path key v
  return { d with current := current }

end Draft

end PackHost.Toml
