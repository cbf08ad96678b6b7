import PackHost.Config.Settings
import PackHost.Manager.Basic

/-!
# Plans from settings

What a manager is told when the settings of the program decide: the standard names and the blocked
ones are kept from scripts, and the budgets of the engine are those of the settings.
-/

namespace PackHost.Plan

variable {ω γ κ : Type}

def ofSettings (s : Config.Settings) (e : Config.Environment) (kind : ScriptKind)
    (engine : Limits → Engine ω γ κ) : Plan ω γ κ :=
  { kind := kind
    directory := s.rootOf e kind
    engine := engine s.limits
    preprocessor := .downleveler
    restriction := s.restriction
    settings := s.packs
    extra := s.extraOf kind }

end PackHost.Plan
