import PackHost.Config.Settings
import PackHost.Manager.Plan
import PackHost.Workbench

/-!
# The load command

Loads the scripts of some kinds once, one kind after another, each with a manager of its own. The
exit code says whether a unit failed.
-/

namespace PackHost.CommandLine

open Files (Tree)

abbrev BenchManager := Manager Workbench Workbench.Made Script.Context

/-- How a run ended; `failure` is why the program gave up. -/
structure Ending where
  exit : Nat
  log : List LogEntry
  failure : Option String
  tree : Tree

def target : String := "rigging"

section

variable (s : Config.Settings) (e : Config.Environment)

/-- The new manager for the scripts of one kind, at the next desk. -/
def newManager (kind : ScriptKind) (w : Bench) : BenchManager :=
  .create (.ofSettings s e kind Workbench.scriptEngine) w.desks.size

/-- What is there while scripts are loaded; `failed` counts the units that failed so far. -/
structure Loading where
  world : Bench
  tree : Tree
  failed : Nat

/-- Loads the scripts of one kind; nothing if that does not end. -/
def loadKind (l : Loading) (kind : ScriptKind) : Option Loading :=
  let found := (newManager s e kind l.world).discover l.tree (l.world.addDesk (.logged kind))
  (found.1.load Workbench.runner found.2.2).map fun r =>
    ⟨r.2, found.2.1, l.failed + r.1.summary.failed⟩

def loadKinds : List ScriptKind → Loading → Option Loading
  | [], l => some l
  | k :: ks, l => (loadKind s e l k).bind (loadKinds ks)

/-- The kinds that are loaded if the given ones are asked for. -/
def requested (kinds : List ScriptKind) : List ScriptKind :=
  if kinds = [] then ScriptKind.all else kinds

def failureNotes (n : Nat) : List LogEntry :=
  if n = 0 then [] else
    [.plain .error target (toString n ++ " script file(s) failed to load")]

def load (kinds : List ScriptKind) (t : Tree) : Option Ending :=
  (loadKinds s e (requested kinds) ⟨.fresh, t, 0⟩).map fun l =>
    ⟨if l.failed = 0 then 0 else 1, l.world.log.reverse ++ failureNotes l.failed, none, l.tree⟩

end

end PackHost.CommandLine
