import PackHost.Config.Settings
import PackHost.Toml.Value

/-!
# Writing settings as values

The table that stands for settings, with the fields in their order. What is not set is left out.
-/

namespace PackHost.Config

def storable? (n : Nat) : Option Toml.Value :=
  if (n : Int) ≤ Toml.Value.greatest then some (.integer n) else none

def packValue (s : PackSettings) : Toml.Value :=
  .table (("enabled", .boolean s.enabled) ::
    (s.description.map fun d => ("description", Toml.Value.text d)).toList)

def extraValue (x : ExtraPack) : Toml.Value :=
  .table [("script_type", .text x.kind.name), ("path", .text x.path.text)]

namespace Settings

/-- The entries of a whole file; none if a number is too great for a file. -/
def entries? (s : Settings) : Option (List (String × Toml.Value)) := do
  let threads ← s.threads.mapM storable?
  let operations ← storable? s.maxOperations
  let levels ← storable? s.maxCallLevels
  let interval ← storable? s.hotReloadInterval
  return [("scripting", .table (
    [("enabled", Toml.Value.boolean s.enabled)] ++
    (s.baseDirectory.map fun p => ("base_dir", Toml.Value.text p.text)).toList ++
    (threads.map fun v => ("preprocess_threads", v)).toList ++
    [("max_operations", operations), ("max_call_levels", levels),
      ("blocked_capabilities", .array (s.blocked.map Toml.Value.text)),
      ("hot_reload", .boolean s.hotReload), ("hot_reload_interval_ms", interval),
      ("packs", .table (s.packs.mapValues packValue)),
      ("extra_packs", .array (s.extraPacks.map extraValue))]))]

end Settings

end PackHost.Config
