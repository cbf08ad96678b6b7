import PackHost.Config.Directories
import PackHost.Engine.Limits
import PackHost.Pack.Settings
import PackHost.Restriction
import PackHost.ScriptKind

/-!
# Settings

What can be set for the program, and what follows from it for one kind of scripts.
-/

namespace PackHost.Config

open Files (Path)

structure ExtraPack where
  kind : ScriptKind
  path : Path
deriving DecidableEq, Repr

structure Settings where
  enabled : Bool
  baseDirectory : Option Path
  threads : Option Nat
  /-- The steps of one script; zero stands for no limit. -/
  maxOperations : Nat
  maxCallLevels : Nat
  blocked : List String
  hotReload : Bool
  /-- The milliseconds between two looks at the files. -/
  hotReloadInterval : Nat
  packs : Table PackSettings
  extraPacks : List ExtraPack
deriving DecidableEq, Repr

namespace Settings

def default : Settings where
  enabled := true
  baseDirectory := none
  threads := none
  maxOperations := 0
  maxCallLevels := Limits.default.maxCallLevels
  blocked := []
  hotReload := true
  hotReloadInterval := 1000
  packs := []
  extraPacks := []

def base (s : Settings) (e : Environment) : Path :=
  s.baseDirectory.getD (e.dataDirectory ⟨".rigging"⟩)

def rootOf (s : Settings) (e : Environment) (kind : ScriptKind) : Path :=
  (s.base e).join ⟨kind.directoryName⟩

def restriction (s : Settings) : Restriction := Restriction.standard.extend s.blocked

def limits (s : Settings) : Limits := ⟨s.maxOperations, s.maxCallLevels⟩

def pack (s : Settings) (name : String) : PackSettings := (s.packs.get? name).getD .default

def extraOf (s : Settings) (kind : ScriptKind) : List Path :=
  (s.extraPacks.filter fun x => x.kind = kind).map ExtraPack.path

end Settings

end PackHost.Config
