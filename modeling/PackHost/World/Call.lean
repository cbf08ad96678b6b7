import PackHost.World.Basic

/-!
# Calls and dispatch

`Runner.call` calls a function through its handle, `Runner.run` runs a program, and `Runner.post`
runs the handlers of an event. The three depend on each other: a program may call functions, a
function may post events, and handlers are functions. Calls may nest up to a bound, and there is no
answer beyond it.
-/

namespace PackHost

variable {ω γ : Type}

/-- How a call answers in a world; no answer beyond the bound on nesting. -/
abbrev Caller (ω γ : Type) :=
  Function → List Value → World ω γ → Option (Outcome Value × World ω γ)

/-! ## Dispatch -/

namespace Listener

def settle (l : Listener) (d : Nat) (event : String) (ended : Outcome Value) (w : World ω γ) :
    World ω γ :=
  match ended, l with
  | .crashed _, _ => w.note (.plain .error "events" ("Handler for '" ++ event ++ "' panicked"))
  | .failed f, .script _ =>
    w.say d .error ("Error in '" ++ event ++ "' event handler: " ++ f.message)
  | _, _ => w

end Listener

def dispatch (call : Caller ω γ) (d : Nat) (event : String) (payload : Value) :
    List Listener → World ω γ → Option (World ω γ)
  | [], w => some w
  | l :: ls, w =>
    match call l.target [payload] w with
    | none => none
    | some (ended, w') => dispatch call d event payload ls (l.settle d event ended w')

/-- Runs the handlers that the event has now; the answer is how many there were. -/
def postWith (call : Caller ω γ) (d : Nat) (event : String) (payload : Value) (w : World ω γ) :
    Option (Nat × World ω γ) :=
  let handlers := (w.desk d).bus.handlers event
  (dispatch call d event payload handlers w).map fun w' => (handlers.length, w')

/-! ## Requests -/

def answerBus (call : Caller ω γ) (d : Nat) (w : World ω γ) :
    BusRequest → Option (Nat × World ω γ)
  | .listen event handler =>
    some ((w.desk d).bus.next, w.changeBus d fun b => b.listen event (.host handler))
  | .remove ids =>
    let bus := (w.desk d).bus
    some (bus.size - (bus.remove ids).size, w.changeBus d fun b => b.remove ids)
  | .clear => some (0, w.changeBus d Event.Bus.clear)
  | .count event => some ((w.desk d).bus.count event, w)
  | .post event payload => postWith call d event payload w

def runWith (call : Caller ω γ) {α : Type} : Program ω γ α → World ω γ → Option (α × World ω γ)
  | .done a, w => some (a, w)
  | .stuck, _ => none
  | .get next, w => runWith call (next w.state) w
  | .set s next, w => runWith call next { w with state := s }
  | .call f args next, w =>
    match call f args w with
    | none => none
    | some (ended, w') => runWith call (next ended) w'
  | .create name arity code next, w =>
    runWith call (next (w.newHandle name arity)) (w.define (.closure code))
  | .bus d request next, w =>
    match answerBus call d w request with
    | none => none
    | some (n, w') => runWith call (next n) w'

/-! ## The functions of a desk -/

def eventName (function : String) : Value → Except Failure String
  | .text name => .ok name
  | v => .error (.runtime (function ++ " expects an event name string, got " ++ v.kindName) none)

def World.listenOwned (w : World ω γ) (d : Nat) (event : String) (f : Function) : World ω γ :=
  w.changeDesk d fun k =>
    { k with bus := k.bus.listen event (.script f), owned := k.bus.next :: k.owned }

namespace DeskRole

def name : DeskRole → String
  | .log => "log"
  | .logError => "logError"
  | .onEvent => "onEvent"
  | .postEvent => "postEvent"

def arity : DeskRole → Nat
  | .log => 1
  | .logError => 1
  | .onEvent => 2
  | .postEvent => 2

def perform (call : Caller ω γ) (d : Nat) (role : DeskRole) (args : List Value) (w : World ω γ) :
    Option (Outcome Value × World ω γ) :=
  match role, args with
  | .log, v :: _ => some (.done .unit, w.say d .info ((w.desk d).annotate v.shown))
  | .logError, v :: _ => some (.done .unit, w.say d .error ((w.desk d).annotate v.shown))
  | .onEvent, name :: handler :: _ =>
    match eventName "onEvent" name, handler with
    | .error f, _ => some (.failed f, w)
    | .ok event, .function f => some (.done .unit, w.listenOwned d event f)
    | .ok _, v =>
      some (.failed (.runtime ("onEvent expects a function, got " ++ v.kindName) none), w)
  | .postEvent, name :: payload :: _ =>
    match eventName "postEvent" name with
    | .error f => some (.failed f, w)
    | .ok event =>
      (postWith call d event payload w).map fun r => (.done (.int (Int64.ofNat r.1)), r.2)
  | _, _ => some (.done .unit, w)

end DeskRole

/-! ## Calls -/

/-- How functions are run: what the functions of engines do, and how deep calls may nest. -/
structure Runner (ω γ : Type) where
  invoke : γ → Native ω γ
  depth : Nat

def arityFailure (f : Function) (expected given : Nat) : Failure :=
  .host (f.name ++ " expects " ++ toString expected ++ " argument(s), got " ++ toString given)

def perform (invoke : γ → Native ω γ) (call : Caller ω γ) (f : Function) (args : List Value)
    (w : World ω γ) : Option (Outcome Value × World ω γ) :=
  match w.functions[f.id]? with
  | none => some (.failed (.host (f.name ++ " is gone")), w)
  | some (.native body) => runWith call (body args) w
  | some (.closure code) => runWith call (invoke code args) w
  | some (.desk d role) => role.perform call d args w

def callAt (invoke : γ → Native ω γ) : Nat → Caller ω γ
  | 0 => fun _ _ _ => none
  | n + 1 => fun f args w =>
    match f.arity with
    | none => perform invoke (callAt invoke n) f args w
    | some expected =>
      if args.length = expected then perform invoke (callAt invoke n) f args w
      else some (.failed (arityFailure f expected args.length), w)

namespace Runner

variable (r : Runner ω γ)

def call : Caller ω γ := callAt r.invoke r.depth

def run {α : Type} (p : Program ω γ α) (w : World ω γ) : Option (α × World ω γ) :=
  runWith r.call p w

/-- Runs the handlers of an event at a desk; the answer is how many there were. -/
def post (d : Nat) (event : String) (payload : Value) (w : World ω γ) :
    Option (Nat × World ω γ) :=
  postWith r.call d event payload w

end Runner

end PackHost
