import PackHost.CommandLine.Load
import PackHost.Files.Watch

/-!
# The watch command

Loads the scripts of one kind, and loads them again whenever a look at the files finds a difference
or a signal asks for it, until the program is told to stop. What the loop waits for (the clock, the
signals) is given as a list of turns, each with what has become of the files in the meantime. Who
sends a signal, and how signals are listened for, is not part of this.
-/

namespace PackHost.CommandLine

open Files (Tree)

/-! ## Times -/

def thousandths (n : Nat) : String :=
  let digits := [n / 100, n / 10 % 10, n % 10].map Nat.digitChar
  String.ofList (digits.reverse.dropWhile (· == '0')).reverse

/-- Milliseconds, written in seconds from one second on. -/
def durationText (n : Nat) : String :=
  if n < 1000 then toString n ++ "ms"
  else
    let places := thousandths (n % 1000)
    toString (n / 1000) ++ (if places = "" then "" else "." ++ places) ++ "s"

example : [250, 1000, 1500, 60050].map durationText = ["250ms", "1s", "1.5s", "60.05s"] := by
  decide

/-! ## Turns -/

inductive Event where
  /-- The clock ticks, at a time in milliseconds. -/
  | tick (now : Nat)
  | signal
  | unheard

/-- A turn of the loop, with what has become of the file tree since the one before. -/
structure Turn where
  edit : Tree → Tree
  event : Event

inductive Stop where
  | told
  | deaf
deriving DecidableEq

inductive Trigger where
  | signal
  | filesChanged
deriving DecidableEq

def Trigger.label : Trigger → String
  | .signal => "Signal"
  | .filesChanged => "FilesChanged"

/-! ## The loop -/

/-- The state of the loop. Signals only count while it is `listening`. -/
structure Vigil where
  manager : BenchManager
  lookout : Files.Watch
  listening : Bool
  tree : Tree
  world : Bench

namespace Vigil

def note (v : Vigil) (entry : LogEntry) : Vigil := { v with world := v.world.note entry }

/-- Looks out for changes below the roots of a manager's packs, as they are now. -/
def watching (m : BenchManager) (interval : Nat) (listening : Bool) (t : Tree) (w : Bench) : Vigil :=
  let r := Files.Watch.start t m.roots m.plan.engine.extension interval
  ⟨m, r.1, listening, t, r.2.foldl World.note w⟩

/-- The scripts are loaded for the first time; nothing if that does not end. -/
def start (s : Config.Settings) (e : Config.Environment) (kind : ScriptKind) (interval : Nat)
    (t : Tree) : Option Vigil :=
  let found := (newManager s e kind .fresh).discover t (Bench.fresh.addDesk (.logged kind))
  (found.1.load Workbench.runner found.2.2).map fun r => .watching r.1 interval true found.2.1 r.2

/-- What is noted once the scripts are loaded for the first time. -/
def openingNote (hot : Bool) (v : Vigil) : LogEntry :=
  .plain .info target <|
    if hot then
      "Watching " ++ toString v.lookout.size ++ " file(s) under " ++ v.manager.plan.directory.text ++
        " every " ++ durationText v.lookout.interval
    else "Hot reload is disabled, reloading on SIGUSR2 only"

/-- What is noted about the difference that a look at the files found. -/
def changesNote (r : Files.ScanReport) : LogEntry :=
  .plain .info "scripting" (toString r.changed.length ++ " changed, " ++ toString r.added.length ++
    " added, " ++ toString r.removed.length ++ " removed")

/-- Loads the scripts again, and looks out below the roots that are then there. -/
def reload (trigger : Trigger) (v : Vigil) : Option Vigil :=
  let told := v.note ⟨.info, "scripting",
    "Reloading " ++ v.manager.plan.kind.name ++ " scripts", [("trigger", trigger.label)]⟩
  (told.manager.reload Workbench.runner told.tree told.world).map fun r =>
    .watching r.1 v.lookout.interval v.listening r.2.1 r.2.2

/-- The state after a look at the files, and the difference that was found. -/
def look (now : Nat) (v : Vigil) : Files.ScanReport × Vigil :=
  let r := v.lookout.scan v.tree now
  (r.1, { v with lookout := r.2.1, world := r.2.2.foldl World.note v.world })

/-- Looks at the files if it is time for that. -/
def tick (now : Nat) (v : Vigil) : Option Vigil :=
  if v.lookout.isDue now then
    let r := v.look now
    if r.1.hasChanges then (r.2.note (changesNote r.1)).reload .filesChanged else some r.2
  else some v

/-- What an event does; the clock only counts if changed files are to be loaded again. -/
def step (hot : Bool) (v : Vigil) : Event → Option Vigil
  | .tick now => if hot then v.tick now else some v
  | .signal => if v.listening then v.reload .signal else some v
  | .unheard =>
    if v.listening then
      some { v.note (.plain .warn "scripting" "Reload signal listener stopped") with
        listening := false }
    else some v

/-- Takes turns, one after another; nothing if a load does not end. -/
def run (hot : Bool) : List Turn → Vigil → Option Vigil
  | [], v => some v
  | turn :: turns, v =>
    (step hot { v with tree := turn.edit v.tree } turn.event).bind (run hot turns)

/-- The end of the loop: the scripts are unloaded, and the exit code says whether the last load had
failures. -/
def close (v : Vigil) : Stop → Ending
  | .told =>
    let r := v.manager.unload (v.note (.plain .info target "Stopping")).world
    ⟨if r.1.errors = [] then 0 else 1, r.2.log.reverse, none, v.tree⟩
  | .deaf => ⟨1, v.world.log.reverse, some "Failed to listen for ctrl-c", v.tree⟩

end Vigil

/-- Watches the scripts of one kind; nothing if a load does not end. -/
def watch (s : Config.Settings) (e : Config.Environment) (kind : ScriptKind)
    (interval : Option Nat) (turns : List Turn) (stop : Stop) (t : Tree) : Option Ending :=
  ((Vigil.start s e kind (max 1 (interval.getD s.hotReloadInterval)) t).bind fun v =>
    (v.note (v.openingNote s.hotReload)).run s.hotReload turns).map fun v => v.close stop

end PackHost.CommandLine
