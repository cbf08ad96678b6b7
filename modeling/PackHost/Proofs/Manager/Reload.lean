import PackHost.Proofs.Twin.Command

/-!
# Reloading

A reload ends like the first load of a new manager: nothing that a manager keeps, and nothing at its
desk, survives it. The main statement is `reload_forgets`.
-/

namespace PackHost

open Event Pack

variable {ω γ κ : Type}

theorem Manager.lasting_sameCore (d : Nat) : Lasting (@World.SameCore ω γ d) :=
  ⟨.refl d, .trans, .say, .note⟩

namespace Manager

/-- **A reload forgets everything.** Whatever has happened to a manager, at its desk and in its
world, a reload ends like discovery and the first load of a new manager over the same file tree:
with no result, or with the same file tree, packs, fates of units, errors, counts, namespace and
globals, and with as many handlers of every event, where functions are compared by name and arity.
The results of registrars and of functions of the host must not depend on earlier calls. -/
theorem reload_forgets (L : Likeness ω γ κ) {r : Runner ω γ} {m : Manager ω γ κ} {H : Nat → Prop}
    {w v : World ω γ} {sink : Sink} (t : Files.Tree) (seated : m.desk < w.desks.size)
    (fresh : v.desks[m.desk]? = some (.fresh sink))
    (uniform : (L.strictly m.desk).Uniform r m.plan.engine)
    (hosted : (L.strictly m.desk).Hosted H w)
    (steady : Registrar.Steady H m.plan.kind w.registrars) (same : SameHost H w v) :
    let found := (create m.plan m.desk).discover t v
    (m.reload r t w = none → found.1.load r found.2.2 = none) ∧
    ∀ m₁ t₁ w₁, m.reload r t w = some (m₁, t₁, w₁) → ∃ m₂ v₂,
      found.1.load r found.2.2 = some (m₂, v₂) ∧ t₁ = found.2.1 ∧ m₁.SameView r w₁ m₂ v₂ := by
  intro found
  have hseat : m.desk < v.desks.size := (Array.getElem?_eq_some_iff.mp fresh).1
  let again := (m.unload w).1.discover t (m.unload w).2
  -- what is found again is what the new manager finds
  have hfinds : (m.unload w).1.SameFinds (create m.plan m.desk) := ⟨rfl, rfl⟩
  obtain ⟨⟨hplan, hpacks⟩, htree⟩ := hfinds.discover t (m.unload w).2 v
  have hcore : World.SameCore m.desk (m.unload w).2 again.2.2 :=
    (lasting_sameCore m.desk).discover (m.unload w).1 t (m.unload w).2
  have hcore' : World.SameCore m.desk v found.2.2 :=
    (lasting_sameCore m.desk).discover (create m.plan m.desk) t v
  have hsame : SameHost H w again.2.2 :=
    (SameHost.changeDesk w m.desk _).trans (.of_sameCore hcore)
  have hsame' : SameHost H again.2.2 found.2.2 :=
    (hsame.symm.trans same).trans (.of_sameCore hcore')
  have hbus : (again.2.2.desk m.desk).bus.table = [] := by
    rw [hcore.bus, unload, World.desk_changeDesk, if_pos ⟨rfl, seated⟩]
    rfl
  have hbus' : (found.2.2.desk m.desk).bus.table = [] := by
    rw [hcore'.bus, World.desk, fresh]
    rfl
  have hplan' : again.1.plan = m.plan := plan_discover _ t _
  have hseat' : m.desk < (m.unload w).2.desks.size := by
    rw [unload, World.size_changeDesk]
    exact seated
  obtain ⟨hstops, hloads⟩ := Scene.hosted_loads_alike (S := L.strictly m.desk) (m := again.1)
    (r := r) (w := again.2.2) (v := found.2.2) trivial
    (hplan'.symm ▸ uniform) hplan (desk_discover _ t _) (desk_discover _ t _)
    (hpacks ▸ List.forall₂_same.mpr fun k _ => .refl k) (hosted.of_sameHost hsame)
    (hplan'.symm ▸ steady.of_bodies hsame.registrars) hsame' (hcore.desks.symm ▸ hseat')
    (hcore'.desks.symm ▸ hseat) (.of_table_eq_nil hbus) (.of_table_eq_nil hbus') (by simp)
  constructor
  · intro hnone
    exact hstops (Option.map_eq_none_iff.mp hnone)
  · intro m₁ t₁ w₁ hreload
    obtain ⟨⟨m₂, w₂⟩, hload, hreload⟩ := Option.map_eq_some_iff.mp hreload
    cases hreload
    obtain ⟨m₃, v₃, -, -, hload', -, -, hview, -⟩ := hloads _ _ hload
    exact ⟨m₃, v₃, hload', htree.symm, hview⟩

namespace Sample

def call : ScriptFile := ⟨"a.toy", ⟨"scripts/a.toy"⟩, 0, "call onEvent tick @seen"⟩

theorem fits_call : Fits call "toy" where
  path := rfl
  components := rfl
  plain := by decide
  extension := rfl
  location := rfl
  text := rfl
  parsed := rfl

end Sample

/-- After a load of another pack, a reload of the tree ends as the first load of a new manager: one
unit is loaded, and its handler is the only one, since that of the host is forgotten too. -/
theorem reload_forgets_sample :
    ∃ m w m₁ t₁ w₁ m₂ v₂,
      (Bench.Sample.manager [Bench.Sample.words]).load Workbench.runner Bench.Sample.world =
        some (m, w) ∧
      m.reload Workbench.runner (Sample.shelf Sample.call) w = some (m₁, t₁, w₁) ∧
      ((create Bench.Sample.plan 0).discover (Sample.shelf Sample.call) Bench.Sample.empty).1.load
        Workbench.runner
          ((create Bench.Sample.plan 0).discover (Sample.shelf Sample.call) Bench.Sample.empty).2.2 =
        some (m₂, v₂) ∧
      m₁.SameView Workbench.runner w₁ m₂ v₂ ∧ m₁.summary = ⟨1, 1⟩ ∧
      (w.desk 0).bus.count "tick" = 2 ∧ (w₁.desk 0).bus.count "tick" = 1 := by
  have hloads : (((Bench.Sample.manager [Bench.Sample.words]).load Workbench.runner
      Bench.Sample.world).bind fun s => (Manager.load
        { (s.1.unload s.2).1 with packs := [Sample.shelved Sample.call], state := .discovered }
        Workbench.runner (s.1.unload s.2).2).map fun s' =>
          ((s.2.desk 0).bus.count "tick", s'.1.summary, (s'.2.desk 0).bus.count "tick")) =
      some (2, ⟨1, 1⟩, 1) := by
    decide +kernel
  obtain ⟨⟨m, w⟩, hload, hloads⟩ := Option.bind_eq_some_iff.mp hloads
  obtain ⟨⟨m₁, w₁⟩, hload₁, hseen⟩ := Option.map_eq_some_iff.mp hloads
  simp only [Prod.mk.injEq] at hseen
  obtain ⟨hbefore, hsummary, hafter⟩ := hseen
  have hdesk : m.desk = 0 := desk_load hload
  have hplan : m.plan = Bench.Sample.plan := plan_load hload
  have hreload : m.reload Workbench.runner (Sample.shelf Sample.call) w =
      some (m₁, Sample.shelf Sample.call, w₁) := by
    have hbare : (m.unload w).1.plan = Bench.Sample.plan := hplan
    rw [reload, Sample.discover_shelf (m := (m.unload w).1) (by rw [hbare]; exact Sample.fits_call)
      (by rw [hbare]; rfl) (by rw [hbare]; rfl) (by rw [hbare]; rfl) rfl]
    simp only [hload₁]
    rfl
  obtain ⟨kept, hkept, hhost⟩ := Bench.Sample.tended.spares (H := (· = 0)) Bench.Sample.handlers
  obtain ⟨hsame, -⟩ := Scene.spares_of_load
    (S := (Command.likeness Workbench.Made.command).strictly 0) trivial
    (Workbench.uniform_commandEngine 0 True False) rfl (Bench.Sample.hosted 0 True False)
    (Bench.Sample.steady .server) Bench.Sample.tended.seated hkept hhost hload
  have seated : m.desk < w.desks.size := by
    obtain ⟨ds, -, rfl⟩ := exists_chronicle hload
    rw [hdesk, Deed.size_replay]
    exact Bench.Sample.tended.seated
  have hnew : SameHost (· = 0) w Bench.Sample.empty := hsame.symm.trans ⟨fun _ _ => rfl, rfl, rfl⟩
  have hfresh : Bench.Sample.empty.desks[m.desk]? = some (.fresh .kept) := by rw [hdesk]; rfl
  obtain ⟨-, hviews⟩ := reload_forgets (Command.likeness Workbench.Made.command)
    (Sample.shelf Sample.call) seated hfresh
    (by rw [hplan]; exact Workbench.uniform_commandEngine m.desk True False)
    ((Bench.Sample.hosted m.desk True False).of_sameHost hsame)
    (hplan ▸ (Bench.Sample.steady .server).of_bodies hsame.registrars) hnew
  obtain ⟨m₂, v₂, hload₂, -, hview⟩ := hviews _ _ _ hreload
  rw [hplan, hdesk] at hload₂
  exact ⟨m, w, m₁, _, w₁, m₂, v₂, hload, hreload, hload₂, hview, hsummary, hbefore, hafter⟩

end Manager

end PackHost
