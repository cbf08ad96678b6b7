import PackHost.Files.Tree
import PackHost.Pack.Header

/-!
# Script files

What is known about a script file before it is run: its location in the pack, its path, its priority
and its text. Reading a file may fail, and a file may ask to be left out.
-/

namespace PackHost.Pack

structure ScriptFile where
  /-- The path below the root of the pack, with `/` between the names. -/
  location : String
  path : Files.Path
  priority : Int
  source : String
deriving DecidableEq, Repr

inductive ReadFault where
  | trouble (location : String) (e : Files.Trouble)
  | notText (location : String)
  | misread (location : String) (m : Misread)
  | outside (path root : Files.Path)
deriving DecidableEq, Repr

namespace ReadFault

def message : ReadFault → String
  | .trouble location e => "failed to read " ++ location ++ ": " ++ e.message
  | .notText location => location ++ " is not valid UTF-8"
  | .misread location m =>
    location ++ ":" ++ toString m.line ++ ": invalid value '" ++ m.value ++ "' for directive '" ++
      m.directive ++ "'"
  | .outside path root => path.text ++ " is not inside pack root " ++ root.text

def causeName : ReadFault → String
  | .trouble .. => "Io"
  | .notText _ => "NotUtf8"
  | .misread .. => "InvalidDirective"
  | .outside .. => "OutsidePack"

end ReadFault

def locationOf (root path : Files.Path) : Except ReadFault String :=
  match root.locationIn? path with
  | some location => .ok location
  | none => .error (.outside path root)

namespace ScriptFile

def ofSource (location : String) (priority : Int) (source : String) : ScriptFile :=
  ⟨location, ⟨location⟩, priority, source⟩

/-- A file with the given text; nothing if it asks to be left out. -/
def ofText (location : String) (path : Files.Path) (source : String) :
    Except ReadFault (Option ScriptFile) :=
  match Header.read source with
  | .error m => .error (.misread location m)
  | .ok h => .ok (if h.ignored then none else some ⟨location, path, h.priority, source⟩)

/-- Reads a file of the pack with the given root; nothing if it asks to be left out. -/
def read (t : Files.Tree) (root path : Files.Path) : Except ReadFault (Option ScriptFile) :=
  match locationOf root path with
  | .error e => .error e
  | .ok location =>
    match t.read path with
    | .error e => .error (.trouble location e)
    | .ok contents =>
      match String.fromUTF8? contents with
      | none => .error (.notText location)
      | some source => ofText location path source

/-- The order in which files of a pack run: higher priority first, then by location. -/
def order (a b : ScriptFile) : Ordering :=
  (compare b.priority a.priority).then (compare a.location b.location)

end ScriptFile

end PackHost.Pack
