import PackHost.Files.Path
import PackHost.Table

/-!
# File trees

Directories, files with a modification time, and symbolic links, as a plain value. Relative paths
start at the working directory. Looking a path up follows links, except at its end where the caller
says so. `Tree.walk` lists what lies below a directory and does not follow links there.

Everything in a tree can be read and written by whoever runs the program: entries that the system
refuses to read, and what is noted about them, are left out. So are modification times of
directories. They would matter in one place only, a link that has the extension of a script and
leads to a directory; its time is that of the directory on a disk, and 0 here.
-/

namespace PackHost.Files

/-- Why something could not be done with a path. -/
inductive Trouble where
  | notFound
  | exists
  | notDirectory
  | isDirectory
  | tooManyLinks
deriving DecidableEq, Repr

namespace Trouble

def message : Trouble → String
  | .notFound => "No such file or directory (os error 2)"
  | .exists => "File exists (os error 17)"
  | .notDirectory => "Not a directory (os error 20)"
  | .isDirectory => "Is a directory (os error 21)"
  | .tooManyLinks => "Too many levels of symbolic links (os error 40)"

end Trouble

inductive Node where
  /-- A file with its contents and its modification time in seconds. -/
  | file (contents : ByteArray) (modified : Int)
  | directory (entries : List (String × Node))
  | link (target : Path)

namespace Node

instance : Inhabited Node := ⟨.directory []⟩

/-- Whether the entry is a directory; a link is none. -/
def isDirectory : Node → Bool
  | .directory _ => true
  | _ => false

def child? (name : String) : Node → Option Node
  | .directory entries => Table.get? name entries
  | _ => none

def at? : List String → Node → Option Node
  | [], n => some n
  | name :: rest, n => (n.child? name).bind (at? rest)

/-- The entry with another one at a place below; directories on the way are made. -/
def put (new : Node) : List String → Node → Node
  | [], _ => new
  | name :: rest, n =>
    let entries := match n with
      | .directory entries => entries
      | _ => []
    let inner := (Table.get? name entries).getD (.directory [])
    .directory (Table.insert name (put new rest inner) entries)

def drop : List String → Node → Node
  | [], n => n
  | [name], .directory entries => .directory (Table.erase name entries)
  | name :: rest, .directory entries =>
    match Table.get? name entries with
    | some inner => .directory (Table.insert name (drop rest inner) entries)
    | none => .directory entries
  | _, n => n

mutual

/-- The entry and all entries below it with their paths; links are not followed. -/
def walk (p : Path) : Node → List (Path × Node)
  | .file contents modified => [(p, .file contents modified)]
  | .link target => [(p, .link target)]
  | .directory entries => (p, .directory entries) :: walkEntries p entries

def walkEntries (p : Path) : List (String × Node) → List (Path × Node)
  | [] => []
  | e :: es => e.2.walk (p.join ⟨e.1⟩) ++ walkEntries p es

end

end Node

structure Tree where
  root : Node
  home : List String
  clock : Int

namespace Tree

def linkLimit : Nat := 40

/-- The place where a path that starts with the given component starts. -/
def startOf (here : List String) : List Component → List String
  | .root :: _ => []
  | _ => here

/-- Follows components from a place. `links` bounds the links that are followed; a link at the end
is followed if `last` says so. The answer is the place and what is there, if anything is. -/
def follow (root : Node) (last : Bool) : Nat → List String → List Component →
    Except Trouble (List String × Option Node)
  | _, here, [] => .ok (here, root.at? here)
  | links, here, .root :: cs => follow root last links here cs
  | links, here, .current :: cs => follow root last links here cs
  | links, here, .parent :: cs =>
    match root.at? here with
    | some (.directory _) => follow root last links here.dropLast cs
    | some _ => .error .notDirectory
    | none => .error .notFound
  | links, here, .normal name :: cs =>
    match root.at? here with
    | none => .error .notFound
    | some (.directory entries) =>
      match Table.get? name entries with
      | none => if cs = [] then .ok (here ++ [name], none) else .error .notFound
      | some (.link target) =>
        if cs = [] ∧ last = false then .ok (here ++ [name], some (.link target))
        else
          match links with
          | 0 => .error .tooManyLinks
          | links + 1 =>
            let more := target.components
            follow root last links (startOf here more) (more ++ cs)
      | some inner =>
        if cs = [] then .ok (here ++ [name], some inner)
        else if inner.isDirectory then follow root last links (here ++ [name]) cs
        else .error .notDirectory
    | some _ => .error .notDirectory
termination_by links _ cs => (links, cs.length)

def wantsDirectory (p : Path) : Bool :=
  let s := p.text.toList.reverse
  s.head? == some '/' || ['.', '/'].isPrefixOf s

/-- The place that a path names and what is there, if anything is. -/
def locate (t : Tree) (last : Bool) (p : Path) : Except Trouble (List String × Option Node) :=
  if p.text = "" then .error .notFound
  else
    let cs := p.components
    match follow t.root (last || wantsDirectory p) linkLimit (startOf t.home cs) cs with
    | .ok (place, some n) =>
      if wantsDirectory p ∧ n.isDirectory = false then .error .notDirectory
      else .ok (place, some n)
    | r => r

def find (t : Tree) (p : Path) : Except Trouble Node :=
  match t.locate true p with
  | .ok (_, some n) => .ok n
  | .ok (_, none) => .error .notFound
  | .error e => .error e

def contains (t : Tree) (p : Path) : Bool :=
  match t.find p with
  | .ok _ => true
  | .error _ => false

def isDirectory (t : Tree) (p : Path) : Bool :=
  match t.find p with
  | .ok n => n.isDirectory
  | .error _ => false

def read (t : Tree) (p : Path) : Except Trouble ByteArray :=
  match t.find p with
  | .ok (.file contents _) => .ok contents
  | .ok _ => .error .isDirectory
  | .error e => .error e

/-- The modification time of what a path names; for a directory it is always 0. -/
def modified (t : Tree) (p : Path) : Except Trouble Int :=
  match t.find p with
  | .ok (.file _ time) => .ok time
  | .ok _ => .ok 0
  | .error e => .error e

def put (t : Tree) (place : List String) (n : Node) : Tree := { t with root := Node.put n place t.root }

def write (t : Tree) (p : Path) (contents : ByteArray) : Except Trouble Tree :=
  match t.locate true p with
  | .error e => .error e
  | .ok (_, some (.directory _)) => .error .isDirectory
  | .ok (place, _) =>
    if wantsDirectory p then .error .isDirectory
    else .ok { t.put place (.file contents t.clock) with clock := t.clock + 1 }

def makeDirectory (t : Tree) (p : Path) : Except Trouble Tree :=
  let trimmed : Path := ⟨String.ofList (p.text.toList.reverse.dropWhile (· == '/')).reverse⟩
  match t.locate false (if trimmed.text = "" then p else trimmed) with
  | .error e => .error e
  | .ok (_, some _) => .error .exists
  | .ok (place, none) => .ok (t.put place (.directory []))

def pathOf : List Component → Path
  | .root :: cs => ⟨"/" ++ "/".intercalate (cs.map Component.text)⟩
  | cs => ⟨"/".intercalate (cs.map Component.text)⟩

/-- What a refusal to make a directory means: nothing if the directory is there already. -/
def settleDirectory (t : Tree) (p : Path) (e : Trouble) : Tree × Option Trouble :=
  (t, if t.isDirectory p then none else some e)

/-- The tree with a directory and all directories on the way to it, and the trouble on the way; the
components are reversed. -/
def makeAll (t : Tree) : List Component → Tree × Option Trouble
  | [] => (t, none)
  | c :: above =>
    let p := pathOf (c :: above).reverse
    match t.makeDirectory p with
    | .ok t' => (t', none)
    | .error .notFound =>
      match makeAll t above with
      | (t', some e) => (t', some e)
      | (t', none) =>
        match t'.makeDirectory p with
        | .ok t'' => (t'', none)
        | .error e => t'.settleDirectory p e
    | .error e => t.settleDirectory p e

/-- The tree with a directory and all directories on the way to it, and the trouble on the way. -/
def makeDirectories (t : Tree) (p : Path) : Tree × Option Trouble :=
  t.makeAll p.components.reverse

/-- The tree with all directories on the way to a path, and the trouble on the way. -/
def makeParents (t : Tree) (p : Path) : Tree × Option Trouble :=
  t.makeAll (p.components.reverse.drop 1)

/-- The tree with a file that has the given modification time, and all directories on the way. -/
def store (t : Tree) (p : Path) (contents : ByteArray) (time : Int) : Tree :=
  let above := (t.makeParents p).1
  match above.locate true p with
  | .ok (_, some (.directory _)) => above
  | .ok (place, _) => above.put place (.file contents time)
  | .error _ => above

/-- The tree without what a path names; a link is removed itself. -/
def remove (t : Tree) (p : Path) : Tree :=
  match t.locate false p with
  | .ok (place, some _) => { t with root := t.root.drop place }
  | _ => t

/-- The tree with what the first path names under the second one. -/
def rename (t : Tree) (source target : Path) : Tree :=
  match t.locate false source, t.locate false target with
  | .ok (place, some n), .ok (newPlace, _) => { t with root := t.root.drop place }.put newPlace n
  | _, _ => t

def makeLink (t : Tree) (target p : Path) : Tree :=
  match t.locate false p with
  | .ok (place, none) => t.put place (.link target)
  | _ => t

def touch (t : Tree) (p : Path) (time : Int) : Tree :=
  match t.locate true p with
  | .ok (place, some (.file contents _)) => t.put place (.file contents time)
  | _ => t

/-- What lies at and below a path. A link at the path itself is followed, a link below is not. -/
def walk (t : Tree) (p : Path) : List (Path × Node) :=
  match t.locate false p, t.find p with
  | .ok (_, some (.link target)), .ok (.directory entries) =>
    (p, .link target) :: Node.walkEntries p entries
  | .ok (_, some n), _ => n.walk p
  | _, _ => []

/-- The files below a directory with the given extension, in the order of their paths. -/
def filesWithExtension (t : Tree) (p : Path) (extension : String) : List Path :=
  if t.contains p then
    let entries := (t.walk p).filter fun e =>
      !e.2.isDirectory && e.1.extension? == some extension
    (entries.map Prod.fst).mergeSort fun a b => a.order b != .gt
  else []

mutual

/-- The entry's names below a place, a directory's name with a separator behind it. -/
def listNode (place : String) : Node → List String
  | .directory entries => listEntries place entries
  | _ => []

/-- The names of the entries of a directory and of what lies below them. -/
def listEntries (place : String) : List (String × Node) → List String
  | [] => []
  | e :: es =>
    let name := place ++ e.1
    (if e.2.isDirectory then (name ++ "/") :: listNode (name ++ "/") e.2 else [name]) ++
      listEntries place es

end

/-- Everything below the working directory, in ascending order. -/
def listing (t : Tree) : List String :=
  match t.root.at? t.home with
  | some n => (listNode "" n).mergeSort fun a b => a ≤ b
  | none => []

end Tree

end PackHost.Files
