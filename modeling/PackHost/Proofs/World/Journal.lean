import PackHost.Proofs.World.Act

/-!
# Journals of runs

A second reading of programs, calls and posts that also writes down every act. `Journal.forget`
drops the acts again, and the main statements (`forget_callAt`, `forget_run`, `forget_post`) say
that what is left is the run: the same answer, and the world in which all acts have been replayed.
-/

namespace PackHost

variable {ω γ α β : Type}

/-- A computation in a world, with everything that it does; no answer where its run has none. -/
def Journal (ω γ α : Type) := World ω γ → Option (α × List (Act ω γ))

abbrev Reporter (ω γ : Type) := Function → List Value → Journal ω γ (Outcome Value)

namespace Journal

def pure (a : α) : Journal ω γ α := fun _ => some (a, [])

def stuck : Journal ω γ α := fun _ => none

def ask (f : World ω γ → α) : Journal ω γ α := fun w => some (f w, [])

def act (a : Act ω γ) : Journal ω γ Unit := fun _ => some ((), [a])

/-- One computation after another, in the world that the first one leaves. -/
def bind (x : Journal ω γ α) (f : α → Journal ω γ β) : Journal ω γ β := fun w =>
  (x w).bind fun r => (f r.1 (replay r.2 w)).map fun s => (s.1, r.2 ++ s.2)

/-- The computation without its acts, but with the world that they lead to. -/
def forget (x : Journal ω γ α) (w : World ω γ) : Option (α × World ω γ) :=
  (x w).map fun r => (r.1, replay r.2 w)

@[simp] theorem forget_ask (f : World ω γ → α) (w : World ω γ) :
    (ask f).forget w = some (f w, w) := rfl

@[simp] theorem forget_act (a : Act ω γ) (w : World ω γ) :
    (act a).forget w = some ((), a.apply w) := rfl

@[simp] theorem forget_bind (x : Journal ω γ α) (f : α → Journal ω γ β) (w : World ω γ) :
    (x.bind f).forget w = (x.forget w).bind fun r => (f r.1).forget r.2 := by
  unfold forget bind
  cases x w with
  | none => rfl
  | some r => cases h : f r.1 (replay r.2 w) <;> simp [h]

theorem ask_bind (f : World ω γ → α) (k : α → Journal ω γ β) (w : World ω γ) :
    (ask f).bind k w = k (f w) w := by
  simp [bind, ask]

theorem act_bind (a : Act ω γ) (k : Unit → Journal ω γ β) (w : World ω γ) :
    (act a).bind k w = (k () (a.apply w)).map fun s => (s.1, a :: s.2) := rfl

theorem bind_assoc {δ : Type} (x : Journal ω γ α) (f : α → Journal ω γ β) (g : β → Journal ω γ δ) :
    (x.bind f).bind g = x.bind fun a => (f a).bind g := by
  funext w
  unfold bind
  cases x w with
  | none => rfl
  | some r =>
    simp only [Option.bind_some]
    cases f r.1 (replay r.2 w) with
    | none => rfl
    | some s =>
      simp only [Option.map_some, Option.bind_some, replay_append]
      cases g s.1 (replay s.2 (replay r.2 w)) <;> simp

/-! ## The second reading -/

section

variable (call : Reporter ω γ) (d : Nat) (event : String)

def dispatch (payload : Value) : List (Nat × Listener) → Journal ω γ Unit
  | [] => pure ()
  | g :: gs =>
    (act (.entered d event g)).bind fun () =>
      (call g.2.target [payload]).bind fun ended =>
        (act (.left d event g ended)).bind fun () => dispatch payload gs

theorem dispatch_append (payload : Value) (gs hs : List (Nat × Listener)) :
    dispatch call d event payload (gs ++ hs) =
      (dispatch call d event payload gs).bind fun () => dispatch call d event payload hs := by
  induction gs with
  | nil =>
    funext w
    simp [dispatch, pure, bind]
  | cons g gs ih =>
    simp only [List.cons_append, dispatch, bind_assoc, ih]

def post (payload : Value) : Journal ω γ Nat :=
  (ask fun w => (w.desk d).bus.registered event).bind fun gs =>
    (act (.posted d event payload)).bind fun () =>
      (dispatch call d event payload gs).bind fun () =>
        (act (.closed d event)).bind fun () => pure gs.length

/-- A post is the dispatch to the handlers that are there when it begins. -/
theorem post_eq (payload : Value) (w : World ω γ) :
    post call d event payload w =
      (dispatch call d event payload ((w.desk d).bus.registered event) w).map fun s =>
        (((w.desk d).bus.registered event).length,
          .posted d event payload :: s.2 ++ [.closed d event]) := by
  rw [post, ask_bind, act_bind, Act.apply, bind]
  cases dispatch call d event payload ((w.desk d).bus.registered event) w <;> rfl

end

section

variable (call : Reporter ω γ)

def answer (d : Nat) : BusRequest → Journal ω γ Nat
  | .listen event handler =>
    (ask fun w => (w.desk d).bus.next).bind fun n =>
      (act (.listened d event (.host handler))).bind fun () => pure n
  | .remove ids =>
    (ask fun w => (w.desk d).bus.size - ((w.desk d).bus.remove ids).size).bind fun n =>
      (act (.removed d ids)).bind fun () => pure n
  | .clear => (act (.cleared d)).bind fun () => pure 0
  | .count event => ask fun w => (w.desk d).bus.count event
  | .post event payload => post call d event payload

def run : Program ω γ α → Journal ω γ α
  | .done a => pure a
  | .stuck => stuck
  | .get next => (ask World.state).bind fun s => run (next s)
  | .set s next => (act (.put s)).bind fun () => run next
  | .call f args next => (call f args).bind fun ended => run (next ended)
  | .create name arity code next =>
    (ask fun w => w.newHandle name arity).bind fun f =>
      (act (.made code)).bind fun () => run (next f)
  | .bus d request next => (answer call d request).bind fun n => run (next n)

def role (d : Nat) (role : DeskRole) (args : List Value) : Journal ω γ (Outcome Value) :=
  match role, args with
  | .log, v :: _ => (act (.told d .info v.shown)).bind fun () => pure (.done .unit)
  | .logError, v :: _ => (act (.told d .error v.shown)).bind fun () => pure (.done .unit)
  | .onEvent, name :: handler :: _ =>
    match eventName "onEvent" name, handler with
    | .error f, _ => pure (.failed f)
    | .ok event, .function f =>
      (act (.listened d event (.script f))).bind fun () => pure (.done .unit)
    | .ok _, v => pure (.failed (.runtime ("onEvent expects a function, got " ++ v.kindName) none))
  | .postEvent, name :: payload :: _ =>
    match eventName "postEvent" name with
    | .error f => pure (.failed f)
    | .ok event => (post call d event payload).bind fun n => pure (.done (.int (Int64.ofNat n)))
  | _, _ => pure (.done .unit)

def perform (invoke : γ → Native ω γ) (f : Function) (args : List Value) :
    Journal ω γ (Outcome Value) :=
  (ask fun w => w.functions[f.id]?).bind fun
    | none => pure (.failed (.host (f.name ++ " is gone")))
    | some (.native body) => run call (body args)
    | some (.closure code) => run call (invoke code args)
    | some (.desk d r) => role call d r args

end

def callAt (invoke : γ → Native ω γ) : Nat → Reporter ω γ
  | 0 => fun _ _ => stuck
  | n + 1 => fun f args =>
    match f.arity with
    | none => perform (callAt invoke n) invoke f args
    | some expected =>
      if args.length = expected then perform (callAt invoke n) invoke f args
      else pure (.failed (arityFailure f expected args.length))

/-! ## What is left without the acts -/

section

variable {call : Reporter ω γ} {caller : Caller ω γ}
  (h : ∀ f args w, (call f args).forget w = caller f args w)
include h

theorem forget_dispatch (d : Nat) (event : String) (payload : Value) (gs : List (Nat × Listener))
    (w : World ω γ) :
    (dispatch call d event payload gs).forget w =
      (PackHost.dispatch caller d event payload (gs.map Prod.snd) w).map fun w' => ((), w') := by
  induction gs generalizing w with
  | nil => rfl
  | cons g gs ih =>
    have hcall := h g.2.target [payload] w
    simp only [dispatch, forget_bind, forget_act, Option.bind_some, Act.apply, List.map_cons,
      PackHost.dispatch, hcall]
    cases caller g.2.target [payload] w with
    | none => rfl
    | some r => exact ih _

theorem forget_post (d : Nat) (event : String) (payload : Value) (w : World ω γ) :
    (post call d event payload).forget w = postWith caller d event payload w := by
  simp only [post, forget_bind, forget_ask, forget_act, Option.bind_some, Act.apply,
    forget_dispatch h, postWith, Event.Bus.handlers, List.length_map]
  cases PackHost.dispatch caller d event payload _ w <;> rfl

theorem forget_answer (d : Nat) (request : BusRequest) (w : World ω γ) :
    (answer call d request).forget w = answerBus caller d w request := by
  cases request with
  | post event payload => exact forget_post h d event payload w
  | _ => rfl

theorem forget_run (p : Program ω γ α) (w : World ω γ) :
    (run call p).forget w = runWith caller p w := by
  induction p generalizing w with
  | done a => rfl
  | stuck => rfl
  | get next ih =>
    simp only [run, forget_bind, forget_ask, Option.bind_some, runWith]
    exact ih _ w
  | set s next ih =>
    simp only [run, forget_bind, forget_act, Option.bind_some, runWith]
    exact ih _
  | call f args next ih =>
    simp only [run, forget_bind, runWith, h]
    cases caller f args w with
    | none => rfl
    | some r => exact ih _ _
  | create name arity code next ih =>
    simp only [run, forget_bind, forget_ask, forget_act, Option.bind_some, runWith]
    exact ih _ _
  | bus d request next ih =>
    simp only [run, forget_bind, runWith, forget_answer h]
    cases answerBus caller d w request with
    | none => rfl
    | some r => exact ih _ _

theorem forget_role (d : Nat) (r : DeskRole) (args : List Value) (w : World ω γ) :
    (role call d r args).forget w = r.perform caller d args w := by
  cases r with
  | log => cases args <;> rfl
  | logError => cases args <;> rfl
  | onEvent =>
    rcases args with _ | ⟨name, _ | ⟨handler, rest⟩⟩
    · rfl
    · rfl
    · simp only [role, DeskRole.perform]
      cases eventName "onEvent" name with
      | error f => rfl
      | ok event => cases handler <;> rfl
  | postEvent =>
    rcases args with _ | ⟨name, _ | ⟨payload, rest⟩⟩
    · rfl
    · rfl
    · simp only [role, DeskRole.perform]
      cases eventName "postEvent" name with
      | error f => rfl
      | ok event =>
        simp only [forget_bind, forget_post h]
        cases postWith caller d event payload w <;> rfl

theorem forget_perform (invoke : γ → Native ω γ) (f : Function) (args : List Value)
    (w : World ω γ) :
    (perform call invoke f args).forget w = PackHost.perform invoke caller f args w := by
  simp only [perform, forget_bind, forget_ask, Option.bind_some, PackHost.perform]
  cases w.functions[f.id]? with
  | none => rfl
  | some code =>
    cases code with
    | native body => exact forget_run h (body args) w
    | closure code => exact forget_run h (invoke code args) w
    | desk d r => exact forget_role h d r args w

end

/-- **Calls and their journals agree.** -/
theorem forget_callAt (invoke : γ → Native ω γ) (n : Nat) (f : Function) (args : List Value)
    (w : World ω γ) :
    (callAt invoke n f args).forget w = PackHost.callAt invoke n f args w := by
  induction n generalizing f args w with
  | zero => rfl
  | succ n ih =>
    unfold callAt PackHost.callAt
    cases f.arity with
    | none => exact forget_perform ih invoke f args w
    | some expected =>
      by_cases hlen : args.length = expected
      · simp only [hlen, ↓reduceIte]
        exact forget_perform ih invoke f args w
      · simp only [hlen, ↓reduceIte]
        rfl

end Journal

namespace Runner

variable (r : Runner ω γ)

def report : Reporter ω γ := Journal.callAt r.invoke r.depth

theorem forget_report (f : Function) (args : List Value) (w : World ω γ) :
    (r.report f args).forget w = r.call f args w :=
  Journal.forget_callAt r.invoke r.depth f args w

/-- **Runs and their journals agree.** -/
theorem forget_run (p : Program ω γ α) (w : World ω γ) :
    (Journal.run r.report p).forget w = r.run p w :=
  Journal.forget_run r.forget_report p w

/-- **Posts and their journals agree.** -/
theorem forget_post (d : Nat) (event : String) (payload : Value) (w : World ω γ) :
    (Journal.post r.report d event payload).forget w = r.post d event payload w :=
  Journal.forget_post r.forget_report d event payload w

end Runner

end PackHost
