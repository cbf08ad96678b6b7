import PackHost.Table

/-!
# Names that are kept from scripts

A set of names, in ascending order, that no context shows before its first script runs.
-/

namespace PackHost

structure Restriction where
  /-- The names, in ascending order and each once. -/
  names : List String
deriving DecidableEq, Repr

namespace Restriction

def ofList (names : List String) : Restriction := ⟨sortedNames names⟩

def none : Restriction := ⟨[]⟩

def standard : Restriction :=
  ofList ["print", "debug", "eval", "import", "exit", "quit", "load", "loadWithNewGlobal"]

def extend (r : Restriction) (names : List String) : Restriction := ofList (r.names ++ names)

def insert (r : Restriction) (name : String) : Restriction := r.extend [name]

def contains (r : Restriction) (name : String) : Bool := r.names.contains name

def size (r : Restriction) : Nat := r.names.length

end Restriction

end PackHost
