import PackHost.Script.Evaluator

/-!
# Running functions of scripts

A function of a script sees its parameters only. Calls may be nested as deep as the budget says;
`ofDepth` counts them down, with some more for texts that are run inside of others, so that all
recursion comes to an end.
-/

namespace PackHost.Script

open Source (Position)

/-- The value of a function that was left, or the fault as its caller sees it. -/
def Exit.atReturn (r : Routine) (source : String) (place : Option Position) :
    Exit → Except Exit Datum
  | .give d => .ok d
  | .fault f => .error (.fault (f.leave r.name source place))
  | e => .error e

namespace Calls

def runRoutine (calls : Calls) (env : Env) (r : Routine) (args : List Slot)
    (place : Option Position) : Eval Datum := do
  let inner := env.deeper
  env.tick place
  if env.rules.limits.maxCallLevels < inner.level then Eval.fail .depth place
  else
    match ← Eval.attempt (Eval.apart (.ofParams r.params args) (inner.stmts calls r.body)) with
    | .ok d => return d
    | .error e => Eval.settle (e.atReturn r env.source place)

def runNamed (calls : Calls) (env : Env) (name : String) (args : List Datum)
    (place : Option Position) : Eval Datum := do
  let r ← env.callNamed calls .plain name args place
  Eval.settle r.1

/-- Runs a text among the variables that are there. It must not define functions. -/
def runText (calls : Calls) (env : Env) (text : String) (place : Option Position) :
    Eval Datum :=
  match Tree.read env.rules.off text with
  | .error f => Eval.fail (.text f.message) (some f.place)
  | .ok t =>
    if t.library.isEmpty then env.stmts calls t.body
    else Eval.fail (.text ("Function definitions must be at global level and cannot be inside a " ++
      "block or another function")) place

/-- How calls are made that may be nested as deep as the number says. -/
def ofDepth : Nat → Calls
  | 0 =>
    { routine := fun _ _ _ _ => .ask .stuck
      named := fun _ _ _ _ => .ask .stuck
      text := fun _ _ _ => .ask .stuck }
  | n + 1 =>
    { routine := fun env r args place => runRoutine (ofDepth n) env r args place
      named := fun env name args place => runNamed (ofDepth n) env name args place
      text := fun env text place => runText (ofDepth n) env text place }

/-- How deep texts and calls by name may be nested besides the functions of the script. -/
def spare : Nat := 256

def within (limits : Limits) : Calls := ofDepth (limits.maxCallLevels + spare)

end Calls

/-! ## Evaluations as the host sees them -/

def Exit.ended {α : Type} : Exit → Ended Datum α
  | .fault f => .failed f.toError
  | .crash message => .crashed message
  | .quit place => .failed (.other "NOT AN ERROR - exit value" place)
  | .leave _ | .next | .give _ => .failed (.other "NOT AN ERROR - function returns value" none)

def endOfCall : Except Exit Datum → Ended Datum Datum
  | .ok d => .value d
  | .error x => x.ended

def endOfScript : Except Exit Datum → Ended Datum Unit
  | .ok _ | .error (.give _) | .error (.quit _) => .value ()
  | .error x => x.ended

/-- Runs the statements of a script, whose functions they can call. -/
def runTree (rules : Rules) (location : String) (t : Tree) (scope : Scope) :
    Session Cells Datum (Ended Datum Unit × Scope) :=
  let env : Env := ⟨rules, location, t.library, 0⟩
  (env.stmts (.within rules.limits) t.body (.start scope)).bind fun r =>
    .done (endOfScript r.1, r.2.scope)

/-- A function by its name, perhaps with its text, and the cells for its first parameters. -/
structure Pointer where
  name : String
  routine : Option Routine
  cells : List Nat

def callTree (rules : Rules) (t : Tree) (f : Pointer) (args : List Datum) :
    Session Cells Datum (Ended Datum Datum) :=
  let env : Env := ⟨rules, "", t.library, 0⟩
  (env.callPointer (.within rules.limits) f.name f.routine f.cells args none (.start [])).bind
    fun r => .done (endOfCall r.1)

end PackHost.Script
