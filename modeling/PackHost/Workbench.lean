import PackHost.Engine.Command
import PackHost.Event.Reaction
import PackHost.Manager.Load
import PackHost.Script.Engine

/-!
# A host that offers everything

The state of a host that keeps a ledger and lets handlers be given as lists of actions, and a runner
for all functions that its engines create.
-/

namespace PackHost

structure Workbench where
  ledger : Ledger
  depth : Nat
  loads : Nat
  heap : Script.Heap

namespace Workbench

def empty : Workbench := ⟨.empty, 0, 0, .empty⟩

def ledgerPart : Part Workbench Ledger := ⟨Workbench.ledger, fun l w => { w with ledger := l }⟩

def depthPart : Part Workbench Nat := ⟨Workbench.depth, fun d w => { w with depth := d }⟩

def heapPart : Part Workbench Script.Heap := ⟨Workbench.heap, fun h w => { w with heap := h }⟩

inductive Made where
  /-- A handler given as a list of actions, at the desk with the given number. -/
  | reaction (desk : Nat) (actions : List Event.Action)
  | command (made : Command.Made)
  | script (callback : Script.Callback)

def stage (desk : Nat) : Event.Action.Stage Workbench Made :=
  ⟨ledgerPart, depthPart, .reaction desk⟩

def invoke : Made → Native Workbench Made
  | .reaction desk actions => Event.Action.react (stage desk) desk actions
  | .command made => made.perform ledgerPart
  | .script callback => callback.perform (Script.port heapPart .script)

def runner : Runner Workbench Made := ⟨invoke, 1000000⟩

/-- A handler of the host that notes down what it is given, behind a tag. -/
def recording (tag : String) : Native Workbench Made := fun args =>
  (ledgerPart.modify fun l => l.record ("host " ++ tag ++ ": " ++ joinShown ", " args)).bind
    fun () => .done (.done .unit)

def commandEngine : Engine Workbench Made Command.Context := Command.engine .command

def scriptEngine (limits : Limits) : Engine Workbench Made Script.Context :=
  Script.engine heapPart .script limits

end Workbench

abbrev Bench := World Workbench Workbench.Made

namespace Bench

def fresh : Bench := World.fresh Workbench.empty

/-- The handle of a function of the stock, and the world with the function. -/
def offer (w : Bench) (name : String) (arity : Option Nat) (s : Stock) : Function × Bench :=
  (w.newHandle name arity, w.define (.native (s.perform Workbench.ledgerPart)))

/-- The number of a new handler of the host, and the world with the handler. -/
def listen (w : Bench) (desk : Nat) (event : String) (body : Native Workbench Workbench.Made) :
    Nat × Bench :=
  ((w.desk desk).bus.next,
    (w.define (.native body)).changeBus desk fun b =>
      b.listen event (.host (w.newHandle event none)))

/-- The world with one more listener for the end of loads, which counts them. -/
def onLoaded (w : Bench) : Bench :=
  let handle := w.newHandle scriptsLoaded none
  let body : Native Workbench Workbench.Made := fun _ =>
    (Program.modify fun s => { s with loads := s.loads + 1 }).bind fun () => .done (.done .unit)
  let w' := w.define (.native body)
  { w' with lifecycle := w'.lifecycle.listen scriptsLoaded handle }

/-- The lines that the console of a desk keeps, the oldest first; they are emptied. -/
def drainConsole (w : Bench) (desk : Nat) : List Line × Bench :=
  ((w.desk desk).keptLines, w.changeDesk desk fun k => { k with lines := [] })

/-- What was noted down, the oldest line first, and the log, the oldest entry first; both are
emptied, and posts are not nested any more. -/
def drain (w : Bench) : List String × List LogEntry × Bench :=
  (w.state.ledger.lines.reverse, w.log.reverse,
    { w with
      log := []
      state := { w.state with ledger := { w.state.ledger with lines := [] }, depth := 0 } })

end Bench

end PackHost
