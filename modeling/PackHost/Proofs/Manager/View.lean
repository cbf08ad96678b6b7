import PackHost.Manager.Load
import PackHost.Proofs.Twin.Link

/-!
# What is seen of a manager

Two managers, each in its own world, look the same if nothing that a host can ask of them tells them
apart: their packs with units, fates and globals, their namespaces, their errors and counts, and the
handlers at their desks. Functions are compared by name and arity, since their numbers depend on
everything that has happened before.
-/

namespace PackHost

open Pack

variable {ω γ κ : Type}

/-- The same names stand for something in both contexts, and what they stand for is the same. -/
structure SameGlobals (e : Engine ω γ κ) (r : Runner ω γ) (w w' : World ω γ) (c c' : κ) :
    Prop where
  has : e.has c = e.has c'
  names : e.names c = e.names c'
  values : ∀ name, ∃ x y v v', r.run (e.global c name) w = some (x, v) ∧
    r.run (e.global c' name) w' = some (y, v') ∧
    Option.Rel (Value.Matches Function.Resembles) x y

structure Pack.ScriptPack.SameView (e : Engine ω γ κ) (r : Runner ω γ) (w w' : World ω γ)
    (k k' : ScriptPack κ) : Prop where
  name : k.name = k'.name
  description : k.description = k'.description
  root : k.root = k'.root
  units : k.units = k'.units
  context : Option.Rel (SameGlobals e r w w') k.context k'.context

theorem Function.Resembles.euclidean {f g i : Function} (h : f.Resembles i) (h' : g.Resembles i) :
    f.Resembles g :=
  ⟨h.1.trans h'.1.symm, h.2.trans h'.2.symm⟩

section

variable {e : Engine ω γ κ} {r : Runner ω γ} {w w' u : World ω γ}

/-- Contexts that have the same globals as a third one have the same globals. -/
theorem SameGlobals.euclidean {c c' x : κ} (h : SameGlobals e r w u c x)
    (h' : SameGlobals e r w' u c' x) : SameGlobals e r w w' c c' where
  has := h.has.trans h'.has.symm
  names := h.names.trans h'.names.symm
  values name := by
    obtain ⟨a, b, v, t, ha, hb, hab⟩ := h.values name
    obtain ⟨a', b', v', t', ha', hb', hab'⟩ := h'.values name
    rw [hb] at hb'
    cases hb'
    refine ⟨a, a', v, v', ha, ha', rel_euclidean (fun _ _ _ hx hy => ?_) hab hab'⟩
    exact hx.euclidean (fun _ _ _ => .euclidean) hy

theorem Pack.ScriptPack.SameView.euclidean {k k' x : ScriptPack κ} (h : k.SameView e r w u x)
    (h' : k'.SameView e r w' u x) : k.SameView e r w w' k' where
  name := h.name.trans h'.name.symm
  description := h.description.trans h'.description.symm
  root := h.root.trans h'.root.symm
  units := h.units.trans h'.units.symm
  context := rel_euclidean (fun _ _ _ => .euclidean) h.context h'.context

end

structure Manager.SameView (r : Runner ω γ) (m : Manager ω γ κ) (w : World ω γ)
    (m' : Manager ω γ κ) (w' : World ω γ) : Prop where
  state : m.state = m'.state
  packs : List.Forall₂ (ScriptPack.SameView m.plan.engine r w w') m.packs m'.packs
  bindings : m.registry.bindings.Matches (Value.Matches Function.Resembles) m'.registry.bindings
  constants : m.registry.constants.Matches (Value.Matches Function.Resembles) m'.registry.constants
  errors : m.errors = m'.errors
  summary : m.summary = m'.summary
  events : (w.desk m.desk).bus.events = (w'.desk m'.desk).bus.events
  counts : ∀ event, (w.desk m.desk).bus.count event = (w'.desk m'.desk).bus.count event

end PackHost
