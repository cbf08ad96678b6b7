/-!
# Budgets of engines

What a script may use up before it is stopped.
-/

namespace PackHost

structure Limits where
  /-- The steps of one run; zero stands for no limit. -/
  maxOperations : Nat
  maxCallLevels : Nat
deriving DecidableEq, Repr

namespace Limits

def default : Limits := ⟨0, 64⟩

end Limits

end PackHost
