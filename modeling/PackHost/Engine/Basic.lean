import PackHost.Restriction
import PackHost.World.Basic

/-!
# Engines

An engine makes contexts and runs scripts in them. It reaches the world only through programs.
-/

namespace PackHost

structure ContextSpec where
  pack : String
  globals : Table Global
  restriction : Restriction

/-- Something that runs scripts; `κ` is the type of its contexts. -/
structure Engine (ω γ κ : Type) where
  name : String
  extension : String
  create : ContextSpec → Except Failure κ
  run : κ → String → String → Program ω γ (Outcome Unit × κ)
  has : κ → String → Bool
  global : κ → String → Program ω γ (Option Value)
  /-- The names that stand for something, in ascending order. -/
  names : κ → List String

namespace Engine

variable {ω γ κ : Type}

/-- Runs a text in a context, where `run` runs programs. -/
def execute (e : Engine ω γ κ)
    (run : Program ω γ (Outcome Unit × κ) → World ω γ →
      Option ((Outcome Unit × κ) × World ω γ))
    (location text : String) (s : κ × World ω γ) : Option (Outcome Unit × (κ × World ω γ)) :=
  (run (e.run s.1 location text) s.2).map fun r => (r.1.1, (r.1.2, r.2))

end Engine

end PackHost
