/-!
# Tables keyed by names

A table is a list of names with values, in ascending order of the names, each name once. Names are
ordered by their characters.
-/

namespace PackHost

/-- Names with values, in ascending order of the names. -/
abbrev Table (α : Type) := List (String × α)

namespace Table

variable {α β : Type}

def get? (name : String) : Table α → Option α
  | [] => none
  | (k, a) :: t => if k = name then some a else get? name t

/-- The table with a value under a name, in place of an earlier one. -/
def insert (name : String) (a : α) : Table α → Table α
  | [] => [(name, a)]
  | (k, b) :: t =>
    if name = k then (name, a) :: t
    else if name < k then (name, a) :: (k, b) :: t
    else (k, b) :: insert name a t

/-- The table of the given pairs; of two pairs with one name the later counts. -/
def ofPairs (pairs : List (String × α)) : Table α :=
  pairs.foldl (fun t p => t.insert p.1 p.2) []

def names (t : Table α) : List String := t.map Prod.fst

def contains (name : String) (t : Table α) : Bool := (t.get? name).isSome

def erase (name : String) (t : Table α) : Table α := t.filter fun p => p.1 ≠ name

def mapValues (f : α → β) (t : Table α) : Table β := t.map fun p => (p.1, f p.2)

theorem get?_insert_self (name : String) (a : α) (t : Table α) :
    get? name (insert name a t) = some a := by
  induction t with
  | nil => simp [insert, get?]
  | cons p t ih =>
    obtain ⟨k, b⟩ := p
    by_cases h : name = k
    · simp [insert, get?, h]
    · by_cases hlt : name < k
      · simp [insert, get?, h, hlt]
      · have hk : k ≠ name := fun e => h e.symm
        simp [insert, get?, h, hlt, hk, ih]

theorem get?_insert_of_ne {name other : String} (h : other ≠ name) (a : α) (t : Table α) :
    get? other (insert name a t) = get? other t := by
  have hn : name ≠ other := fun e => h e.symm
  induction t with
  | nil => simp [insert, get?, hn]
  | cons p t ih =>
    obtain ⟨k, b⟩ := p
    by_cases hk : name = k
    · subst hk
      simp [insert, get?, hn]
    · by_cases hlt : name < k
      · simp [insert, get?, hk, hlt, hn]
      · simp [insert, get?, hk, hlt, ih]

end Table

/-- The names without repetitions, in ascending order. -/
def sortedNames (names : List String) : List String :=
  Table.names (Table.ofPairs (names.map fun n => (n, ())))

end PackHost
