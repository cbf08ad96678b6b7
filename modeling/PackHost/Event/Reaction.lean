import PackHost.World.Ledger

/-!
# Reactions

Handlers that are given as lists of actions: they note down lines, crash, and change or use the bus
on which they are registered. Posts that nest too deep are not made.
-/

namespace PackHost.Event

inductive Action where
  | record (tag : String)
  | crash (message : String)
  | listen (event : String) (actions : List Action)
  | remove (ids : List Nat)
  | clear
  | count (event : String)
  | post (event : String) (payload : Value)

def nestingLimit : Nat := 6

namespace Action

instance : Inhabited Action := ⟨.clear⟩

variable {ω γ : Type}

structure Stage (ω γ : Type) where
  ledger : Part ω Ledger
  depth : Part ω Nat
  wrap : List Action → γ

def note (s : Stage ω γ) (line : String) : Program ω γ Unit :=
  s.ledger.modify fun l => l.record line

/-- What the actions do, one after another, at the desk with the given number. -/
def perform (s : Stage ω γ) (desk : Nat) (payload : Value) :
    List Action → Program ω γ (Outcome Value)
  | [] => .done (.done .unit)
  | .record tag :: rest =>
    (note s (tag ++ ":" ++ payload.shown)).bind fun () => perform s desk payload rest
  | .crash message :: _ => .done (.crashed (some message))
  | .listen event actions :: rest =>
    .create "handler" none (s.wrap actions) fun f =>
      .bus desk (.listen event f) fun _ => perform s desk payload rest
  | .remove ids :: rest =>
    .bus desk (.remove ids) fun n =>
      (note s ("removed " ++ toString n)).bind fun () => perform s desk payload rest
  | .clear :: rest => .bus desk .clear fun _ => perform s desk payload rest
  | .count event :: rest =>
    .bus desk (.count event) fun n =>
      (note s ("count " ++ toString n)).bind fun () => perform s desk payload rest
  | .post event v :: rest =>
    .get fun w =>
      if s.depth.get w < nestingLimit then
        (s.depth.modify (· + 1)).bind fun () =>
          .bus desk (.post event v) fun n =>
            (s.depth.modify (· - 1)).bind fun () =>
              (note s ("posted " ++ toString n)).bind fun () => perform s desk payload rest
      else (note s "too deep").bind fun () => perform s desk payload rest

def react (s : Stage ω γ) (desk : Nat) (actions : List Action) : Native ω γ := fun args =>
  perform s desk (args.headD .unit) actions

end Action

end PackHost.Event
