import PackHost.World.Call

/-!
# Acts

Whatever programs, handlers and the functions of desks do to a world is a sequence of acts. `replay`
plays acts in a world, so that the worlds in between are those after the first few acts.
-/

namespace PackHost

variable {ω γ : Type}

/-- One thing that a program, a handler or a function of a desk does in a world. -/
inductive Act (ω γ : Type) where
  | put (s : ω)
  | made (code : γ)
  | listened (desk : Nat) (event : String) (l : Listener)
  | removed (desk : Nat) (ids : List Nat)
  | cleared (desk : Nat)
  | told (desk : Nat) (level : Level) (message : String)
  | noted (entry : LogEntry)
  | posted (desk : Nat) (event : String) (payload : Value)
  | entered (desk : Nat) (event : String) (g : Nat × Listener)
  | left (desk : Nat) (event : String) (g : Nat × Listener) (ended : Outcome Value)
  | closed (desk : Nat) (event : String)

namespace Act

def apply : Act ω γ → World ω γ → World ω γ
  | .put s, w => { w with state := s }
  | .made code, w => w.define (.closure code)
  | .listened d event (.host f), w => w.changeBus d fun b => b.listen event (.host f)
  | .listened d event (.script f), w => w.listenOwned d event f
  | .removed d ids, w => w.changeBus d fun b => b.remove ids
  | .cleared d, w => w.changeBus d Event.Bus.clear
  | .told d level message, w => w.say d level ((w.desk d).annotate message)
  | .noted entry, w => w.note entry
  | .posted .., w => w
  | .entered .., w => w
  | .left d event g ended, w => g.2.settle d event ended w
  | .closed .., w => w

def isMark : Act ω γ → Bool
  | .posted .. => true
  | .entered .. => true
  | .left .. => true
  | .closed .. => true
  | _ => false

end Act

def replay (as : List (Act ω γ)) (w : World ω γ) : World ω γ := as.foldl (fun w a => a.apply w) w

@[simp] theorem replay_nil (w : World ω γ) : replay [] w = w := rfl

@[simp] theorem replay_cons (a : Act ω γ) (as : List (Act ω γ)) (w : World ω γ) :
    replay (a :: as) w = replay as (a.apply w) := rfl

@[simp] theorem replay_append (as bs : List (Act ω γ)) (w : World ω γ) :
    replay (as ++ bs) w = replay bs (replay as w) := by
  rw [replay, List.foldl_append]
  rfl

end PackHost
