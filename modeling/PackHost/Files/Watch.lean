import PackHost.Console
import PackHost.Files.Tree

/-!
# Watching script files

A watch remembers the modification times of the script files below its roots. A scan compares them
with the present ones and reports what changed, what is new and what is gone.
-/

namespace PackHost.Files

/-- Files with their modification times, in the order of their paths. -/
abbrev Times := List (Path × Int)

namespace Times

def get? (p : Path) : Times → Option Int
  | [] => none
  | e :: es => if e.1.same p then some e.2 else get? p es

/-- The times with that of one more file, in place of an earlier one. -/
def insert (p : Path) (time : Int) : Times → Times
  | [] => [(p, time)]
  | e :: es =>
    match p.order e.1 with
    | .lt => (p, time) :: e :: es
    | .eq => (e.1, time) :: es
    | .gt => e :: insert p time es

end Times

structure ScanReport where
  changed : List (Path × Int)
  added : List Path
  removed : List Path

namespace ScanReport

def hasChanges (r : ScanReport) : Bool :=
  !r.changed.isEmpty || !r.added.isEmpty || !r.removed.isEmpty

def between (old new : Times) : ScanReport :=
  { changed := new.filter fun e =>
      match old.get? e.1 with
      | some time => time != e.2
      | none => false
    added := (new.filter fun e => (old.get? e.1).isNone).map Prod.fst
    removed := (old.filter fun e => (new.get? e.1).isNone).map Prod.fst }

end ScanReport

structure Watch where
  roots : List Path
  extension : String
  /-- How long to wait between two scans, in milliseconds. -/
  interval : Nat
  /-- When the last scan was made, in milliseconds. -/
  lastScan : Option Nat
  times : Times

namespace Watch

/-- How long to wait between two scans if nothing else is said, in milliseconds. -/
def defaultInterval : Nat := 1000

/-- The entry in the log for a file without a modification time. -/
def missingTime (p : Path) (e : Trouble) : LogEntry :=
  .plain .warn "scripting"
    ("Failed to get modification time for " ++ p.text ++ ": " ++ e.message)

/-- The times of some files, after those already known, and what is to be noted. -/
def timesOf (t : Tree) : List Path → Times × List LogEntry → Times × List LogEntry
  | [], known => known
  | p :: ps, (times, notes) =>
    match t.modified p with
    | .ok time => timesOf t ps (times.insert p time, notes)
    | .error e => timesOf t ps (times, notes ++ [missingTime p e])

/-- The times of the script files below the roots, and what is to be noted. -/
def snapshot (t : Tree) (extension : String) (roots : List Path) : Times × List LogEntry :=
  timesOf t (roots.flatMap fun r => t.filesWithExtension r extension) ([], [])

/-- A new watch; the files that are there now are not new. -/
def start (t : Tree) (roots : List Path) (extension : String) (interval : Nat) :
    Watch × List LogEntry :=
  let r := snapshot t extension roots
  (⟨roots, extension, interval, none, r.1⟩, r.2)

def isDue (w : Watch) (now : Nat) : Bool :=
  match w.lastScan with
  | some last => w.interval ≤ now - last
  | none => true

def scan (w : Watch) (t : Tree) (now : Nat) : ScanReport × Watch × List LogEntry :=
  let r := snapshot t w.extension w.roots
  (.between w.times r.1, { w with lastScan := some now, times := r.1 }, r.2)

def size (w : Watch) : Nat := w.times.length

end Watch

end PackHost.Files
