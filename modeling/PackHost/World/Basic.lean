import PackHost.Binding
import PackHost.Console
import PackHost.Event.Bus
import PackHost.World.Program

/-!
# The world of a host

Everything that outlives a single call: the functions behind the handles, a desk for every manager
with its event bus and its console, the listeners of the host, the log of the process, and the state
of the embedding program.
-/

namespace PackHost

/-- The functions that every desk offers to scripts. -/
inductive DeskRole where
  | log
  | logError
  | onEvent
  | postEvent
deriving DecidableEq, Repr

inductive Code (ω γ : Type) where
  | native (body : Native ω γ)
  | closure (code : γ)
  | desk (desk : Nat) (role : DeskRole)

inductive Listener where
  /-- Registered by the host; what it returns is ignored. -/
  | host (target : Function)
  /-- Registered by a script; its failures are reported. -/
  | script (target : Function)
deriving DecidableEq, Repr

namespace Listener

def target : Listener → Function
  | .host f => f
  | .script f => f

end Listener

/-- What belongs to one manager and is seen by the functions it offers. -/
structure Desk where
  bus : Event.Bus Listener
  /-- The registrations made by scripts since the last load began, the newest first. -/
  owned : List Nat
  currentUnit : Option String
  sink : Sink
  lines : Lines

namespace Desk

def fresh (sink : Sink) : Desk := ⟨.empty, [], none, sink, []⟩

/-- The lines that the console keeps, the oldest first. -/
def keptLines (d : Desk) : List Line :=
  match d.sink with
  | .kept => d.lines.reverse
  | .logged _ => []

/-- The message, behind the location of the unit that is being run. -/
def annotate (d : Desk) (message : String) : String :=
  match d.currentUnit with
  | some location => location ++ ": " ++ message
  | none => message

end Desk

structure World (ω γ : Type) where
  functions : Array (Code ω γ)
  desks : Array Desk
  registrars : List Registrar
  lifecycle : Event.Bus Function
  /-- The log of the process, the newest entry first. -/
  log : List LogEntry
  state : ω

namespace World

variable {ω γ : Type}

def fresh (state : ω) : World ω γ := ⟨#[], #[], [], .empty, [], state⟩

def note (w : World ω γ) (entry : LogEntry) : World ω γ := { w with log := entry :: w.log }

def newHandle (w : World ω γ) (name : String) (arity : Option Nat) : Function :=
  ⟨name, arity, w.functions.size⟩

def define (w : World ω γ) (code : Code ω γ) : World ω γ :=
  { w with functions := w.functions.push code }

/-- The desk with the given number; one at which nothing has happened if there is none. -/
def desk (w : World ω γ) (d : Nat) : Desk := (w.desks[d]?).getD (.fresh .kept)

def changeDesk (w : World ω γ) (d : Nat) (f : Desk → Desk) : World ω γ :=
  { w with desks := w.desks.modify d f }

def changeBus (w : World ω γ) (d : Nat) (f : Event.Bus Listener → Event.Bus Listener) :
    World ω γ :=
  w.changeDesk d fun k => { k with bus := f k.bus }

def say (w : World ω γ) (d : Nat) (level : Level) (text : String) : World ω γ :=
  let line : Line := ⟨level, text⟩
  let w' := w.changeDesk d fun k => { k with lines := line :: k.lines }
  match (w.desk d).sink with
  | .kept => w'
  | .logged kind => w'.note (.ofLine kind line)

/-- The world with a new desk; its number is the number of desks before. -/
def addDesk (w : World ω γ) (sink : Sink) : World ω γ :=
  { w with desks := w.desks.push (.fresh sink) }

def hostOutline (w : World ω γ) : Text.Outline :=
  .record "ScriptHost" [("registrars", .nat w.registrars.length),
    ("lifecycle", w.lifecycle.outline)]

end World

end PackHost
