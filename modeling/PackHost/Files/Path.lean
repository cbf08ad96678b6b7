/-!
# Paths

A path is kept as it was written. What it means are its components: repeated and trailing separators
and inner `.` segments do not count, a leading `.` and every `..` do. The location of a file in a
pack is what follows the root, with the components joined by `/`.
-/

namespace PackHost.Files

inductive Component where
  | root
  /-- The leading `.` of a relative path. -/
  | current
  | parent
  | normal (name : String)
deriving DecidableEq, Repr

namespace Component

def text : Component → String
  | .root => "/"
  | .current => "."
  | .parent => ".."
  | .normal name => name

/-- The place of the kind of component in the order of components. -/
def rank : Component → Nat
  | .root => 0
  | .current => 1
  | .parent => 2
  | .normal _ => 3

/-- The order of components: by kind, and names by their characters. -/
def order (a b : Component) : Ordering :=
  (compare a.rank b.rank).then (compare a.text b.text)

end Component

def splitAtAll (separator : Char) : List Char → List (List Char)
  | [] => [[]]
  | c :: cs =>
    if c = separator then [] :: splitAtAll separator cs
    else
      match splitAtAll separator cs with
      | [] => [[c]]
      | s :: ss => (c :: s) :: ss

structure Path where
  text : String
deriving DecidableEq, Repr

namespace Path

def isAbsolute (p : Path) : Bool := p.text.toList.head? == some '/'

/-- The component that a segment stands for; none for an empty segment and for a `.` segment. -/
def segment? (s : List Char) : Option Component :=
  if s = [] ∨ s = ['.'] then none
  else if s = ['.', '.'] then some .parent
  else some (.normal (String.ofList s))

def components (p : Path) : List Component :=
  let segments := splitAtAll '/' p.text.toList
  let inner := segments.filterMap segment?
  if p.isAbsolute then .root :: inner
  else if segments.head? = some ['.'] then .current :: inner
  else inner

/-- The path with more behind it; an absolute path replaces it. -/
def join (p q : Path) : Path :=
  if q.isAbsolute then q
  else if p.text = "" ∨ p.text.toList.getLast? = some '/' then ⟨p.text ++ q.text⟩
  else ⟨p.text ++ "/" ++ q.text⟩

/-- The name at the end of the path, if it ends with a name. -/
def fileName? (p : Path) : Option String :=
  match p.components.getLast? with
  | some (.normal name) => some name
  | _ => none

/-- What follows the last dot of a name, unless the name starts with it. -/
def extensionOf? (name : String) : Option String :=
  let reversed := name.toList.reverse
  let after := reversed.takeWhile (· ≠ '.')
  if after.length + 1 < reversed.length then some (String.ofList after.reverse) else none

def extension? (p : Path) : Option String := p.fileName?.bind extensionOf?

/-- The order of lists of components, one component after another. -/
def orderComponents : List Component → List Component → Ordering
  | [], [] => .eq
  | [], _ :: _ => .lt
  | _ :: _, [] => .gt
  | a :: as, b :: bs => (a.order b).then (orderComponents as bs)

def order (p q : Path) : Ordering := orderComponents p.components q.components

def same (p q : Path) : Bool := p.components == q.components

/-- What follows the first list in the second one, if the second one starts with it. -/
def dropPrefix? : List Component → List Component → Option (List Component)
  | [], cs => some cs
  | _ :: _, [] => none
  | r :: rs, c :: cs => if r = c then dropPrefix? rs cs else none

/-- The location of a path below a root; none if the path is not below the root. -/
def locationIn? (root path : Path) : Option String :=
  (dropPrefix? root.components path.components).map fun rest =>
    "/".intercalate (rest.map Component.text)

end Path

end PackHost.Files
