import PackHost.Script.Scope

/-!
# Evaluations

An evaluation reads and changes the variables of a frame, is a session with the host, and ends with
a result or with an exit. An environment says what an evaluation can reach besides its frame.
-/

namespace PackHost.Script

open Source (Position)

/-- What an evaluation can reach besides its frame. -/
structure Env where
  rules : Rules
  source : String
  library : Library
  level : Nat

abbrev Eval (α : Type) := ExceptT Exit (StateT Frame (Session Cells Datum)) α

namespace Eval

variable {α : Type}

def ask (p : Session Cells Datum α) : Eval α := fun frame => p.bind fun a => .done (.ok a, frame)

def attempt (p : Eval α) : Eval (Except Exit α) := fun frame =>
  (p frame).bind fun r => .done (.ok r.1, r.2)

def settle (r : Except Exit α) : Eval α := fun frame => .done (r, frame)

/-- An evaluation whose variables are forgotten at its end, however it ends. -/
def enclosed (p : Eval α) : Eval α := fun frame =>
  (p frame).bind fun r =>
    .done (r.1, { r.2 with scope := r.2.scope.oldest frame.scope.length })

def apart (scope : Scope) (p : Eval α) : Eval α := fun frame =>
  (p { frame with scope := scope }).bind fun r =>
    .done (r.1, { frame with steps := r.2.steps })

def define (name : String) (constant : Bool) (d : Datum) : Eval Unit :=
  modify fun frame => { frame with scope := ⟨name, constant, .own d⟩ :: frame.scope }

def defineSome (name : Option String) (d : Datum) : Eval Unit :=
  match name with
  | none => return ()
  | some s => define s false d

def catches : Eval Unit := ask (.caught (.done ()))

def fail (cause : Cause) (place : Option Position) : Eval α :=
  settle (.error (.fault (.new cause place)))

def boundless : Nat := 4611686018427387904

def rounds (round : Eval (Option α)) : Eval α := fun frame =>
  Session.iterate (fun s => (round s).bind fun r =>
    match r with
    | (.ok none, s') => .done (.inl s')
    | (.ok (some a), s') => .done (.inr (.ok a, s'))
    | (.error e, s') => .done (.inr (.error e, s'))) boundless frame

end Eval

namespace Env

variable (env : Env)

def tick (place : Option Position) : Eval Unit := fun frame =>
  let frame' := { frame with steps := frame.steps + 1 }
  let most := env.rules.limits.maxOperations
  if most ≠ 0 ∧ most < frame'.steps then .done (.error (.fault (.new .steps place)), frame')
  else .done (.ok (), frame')

def readCells : Eval Cells := .ask (.look .done)

def changeCells (f : Cells → Cells) : Eval Unit := .ask (.change f (.done ()))

def readCell (cell : Nat) : Eval Cell := do
  return (← readCells).getD cell default

/-! ## Variables -/

structure Sight where
  value : Datum
  /-- Whether nothing can be assigned to it. -/
  constant : Bool
  shared : Bool

def look (constant : Bool) : Slot → Eval Sight
  | .own d => return ⟨d, constant, false⟩
  | .shared cell => do
    let c ← readCell cell
    return ⟨c.value, constant || c.constant, true⟩

/-- What a name stands for: a variable, or a function of the script if no variable was declared. -/
def lookUp (v : Mention) : Eval Sight := do
  match (← get).scope.find? v.name with
  | some found => look found.constant found.slot
  | none =>
    match if v.known then none else env.library.named? v.name with
    | some r => return ⟨.pointer v.name (some r) [], false, false⟩
    | none => Eval.fail (.variable_ v.name) v.place

/-- Gives the newest variable with a name another value. -/
def store (name : String) (d : Datum) : Eval Unit := do
  match (← get).scope.find? name with
  | some ⟨_, _, .shared cell⟩ =>
    changeCells fun cells => cells.modify cell fun c => { c with value := d }
  | _ => modify fun frame => { frame with scope := frame.scope.place name (.own d) }

/-- Gives the newest variable with a name another value, if a name is given. -/
def storeSome (name : Option String) (d : Datum) : Eval Unit :=
  match name with
  | none => return ()
  | some s => store s d

/-- The cell of a variable, which is moved to a new cell if it has none. -/
def share (name : String) (place : Position) : Eval Nat := do
  match (← get).scope.find? name with
  | none => Eval.fail (.variable_ name) place
  | some ⟨_, _, .shared cell⟩ => return cell
  | some ⟨_, constant, .own d⟩ =>
    let cell := (← readCells).size
    changeCells fun cells => cells.push ⟨d, constant⟩
    modify fun frame => { frame with scope := frame.scope.place name (.shared cell) }
    return cell

def shareAll : List (String × Position) → Eval (List Nat)
  | [] => return []
  | v :: vs => do
    let cell ← share v.1 v.2
    return cell :: (← shareAll vs)

end Env

end PackHost.Script
