import PackHost.Manager.Load
import PackHost.Proofs.World.Journal
import PackHost.Proofs.World.Roll

/-!
# Deeds of a manager

What a manager does to its world is a sequence of deeds: the acts of the scripts and handlers that
it runs, and its own.
-/

namespace PackHost

variable {ω γ κ : Type}

/-- Handlers, and what is known about who registered them, are the same at all desks. -/
def SameHandlers (w w' : World ω γ) : Prop :=
  w'.desks.size = w.desks.size ∧
    ∀ d, (w'.desk d).bus = (w.desk d).bus ∧ (w'.desk d).owned = (w.desk d).owned

namespace SameHandlers

theorem refl (w : World ω γ) : SameHandlers w w := ⟨rfl, fun _ => ⟨rfl, rfl⟩⟩

theorem trans {w w' w'' : World ω γ} (h : SameHandlers w w') (h' : SameHandlers w' w'') :
    SameHandlers w w'' :=
  ⟨h'.1.trans h.1, fun d => ⟨(h'.2 d).1.trans (h.2 d).1, (h'.2 d).2.trans (h.2 d).2⟩⟩

theorem say (w : World ω γ) (d : Nat) (level : Level) (text : String) :
    SameHandlers w (w.say d level text) := by
  refine ⟨World.size_say w d level text, fun e => ?_⟩
  have hroll := World.roll_say w e d level text
  exact ⟨congrArg Roll.bus hroll, congrArg Roll.owned hroll⟩

end SameHandlers

/-- One thing that a manager does, or lets scripts and handlers do. -/
inductive Deed (ω γ κ : Type) where
  | act (a : Act ω γ)
  | said (desk : Nat) (level : Level) (text : String)
  | forgot (desk : Nat)
  | gathered (desk : Nat) (kind : ScriptKind)
  | switched (desk : Nat) (location : Option String)
  | handed (pack location text : String) (context : κ)
  | finished (ended : Outcome Unit) (context : κ)
  | unloaded (desk : Nat)
  /-- Something that has nothing to do with handlers. -/
  | aside (f : World ω γ → World ω γ) (same : ∀ w, SameHandlers w (f w))

namespace Deed

def apply : Deed ω γ κ → World ω γ → World ω γ
  | .act a, w => a.apply w
  | .said d level text, w => w.say d level text
  | .forgot d, w => w.dropOwned d
  | .gathered d kind, w => (w.collect d kind).2
  | .switched d location, w => w.setUnit d location
  | .handed .., w => w
  | .finished .., w => w
  | .unloaded d, w => w.changeDesk d fun k => { k with bus := k.bus.clear, owned := [] }
  | .aside f _, w => f w

def replay (ds : List (Deed ω γ κ)) (w : World ω γ) : World ω γ :=
  ds.foldl (fun w a => a.apply w) w

@[simp] theorem replay_nil (w : World ω γ) : replay ([] : List (Deed ω γ κ)) w = w := rfl

@[simp] theorem replay_cons (a : Deed ω γ κ) (ds : List (Deed ω γ κ)) (w : World ω γ) :
    replay (a :: ds) w = replay ds (a.apply w) := rfl

@[simp] theorem replay_append (ds es : List (Deed ω γ κ)) (w : World ω γ) :
    replay (ds ++ es) w = replay es (replay ds w) := by
  rw [replay, List.foldl_append]
  rfl

@[simp] theorem replay_map_act (as : List (Act ω γ)) (w : World ω γ) :
    replay (as.map act : List (Deed ω γ κ)) w = PackHost.replay as w := by
  induction as generalizing w with
  | nil => rfl
  | cons a as ih => exact ih _

end Deed

end PackHost
