import PackHost.Engine.Basic
import PackHost.Pack.Basic
import PackHost.Pack.Settings
import PackHost.World.Load

/-!
# Managers

A manager runs the scripts of one kind: it finds packs in a file tree, loads their units into
contexts of an engine, and keeps account of what failed. The functions that it offers to scripts,
its event bus and its console are at its desk in the world.
-/

namespace PackHost

open Pack

structure Plan (ω γ κ : Type) where
  kind : ScriptKind
  directory : Files.Path
  engine : Engine ω γ κ
  preprocessor : Source.Preprocessor
  restriction : Restriction
  settings : Table PackSettings
  extra : List Files.Path

inductive ManagerState where
  | created
  | discovered
  | loaded
  | unloaded
deriving DecidableEq, Repr

namespace ManagerState

def label : ManagerState → String
  | .created => "Created"
  | .discovered => "Discovered"
  | .loaded => "Loaded"
  | .unloaded => "Unloaded"

end ManagerState

structure Summary where
  loaded : Nat
  total : Nat
deriving DecidableEq, Repr

namespace Summary

def failed (s : Summary) : Nat := s.total - s.loaded

end Summary

structure Manager (ω γ κ : Type) where
  plan : Plan ω γ κ
  desk : Nat
  state : ManagerState
  /-- Its packs, in the order in which they were first found. -/
  packs : List (ScriptPack κ)
  registry : Registry
  errors : List String
  summary : Summary

namespace Manager

variable {ω γ κ : Type}

def create (plan : Plan ω γ κ) (desk : Nat) : Manager ω γ κ :=
  ⟨plan, desk, .created, [], .empty, [], ⟨0, 0⟩⟩

def pack? (m : Manager ω γ κ) (name : String) : Option (ScriptPack κ) :=
  m.packs.find? fun p => p.name = name

def outline (m : Manager ω γ κ) : Text.Outline :=
  .record "ScriptManager" [("script_type", .plain m.plan.kind.label),
    ("directory", .text m.plan.directory.text), ("engine", .text m.plan.engine.name),
    ("packs", .list (m.packs.map ScriptPack.outline)),
    ("errors", .list (m.errors.map Text.Outline.text)), ("state", .plain m.state.label)]

end Manager

end PackHost
