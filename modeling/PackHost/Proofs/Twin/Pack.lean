import PackHost.Proofs.Manager.Tale
import PackHost.Proofs.Twin.Call
import PackHost.Proofs.Twin.Table

/-!
# Packs side by side

Where engines, the host and the namespaces do alike, units with the same scripts run alike, and so
do packs: `Scene.keeps_units` and `Scene.keeps_packs`. `Scene.Uniform` says what is asked of an
engine; the command engine grants it (`Command.uniform`).
-/

namespace PackHost

open Event Pack

variable {ω γ κ : Type}

/-- Packs that differ in nothing but their contexts and the fates of their units. -/
structure Pack.ScriptPack.SameScripts (k k' : ScriptPack κ) : Prop where
  name : k.name = k'.name
  description : k.description = k'.description
  root : k.root = k'.root
  units : k.units.map ScriptUnit.script = k'.units.map ScriptUnit.script

theorem Pack.ScriptPack.SameScripts.refl (k : ScriptPack κ) : k.SameScripts k :=
  ⟨rfl, rfl, rfl, rfl⟩

theorem Pack.ScriptPack.SameScripts.symm {k k' : ScriptPack κ} (h : k.SameScripts k') :
    k'.SameScripts k :=
  ⟨h.name.symm, h.description.symm, h.root.symm, h.units.symm⟩

theorem Manager.sameScripts_of_loadPacks {plan : Plan ω γ κ} {d : Nat} {r : Runner ω γ}
    {globals : Table Global} {ks ks' : List (ScriptPack κ)} {p p' : Manager.Pass ω γ}
    (h : Manager.loadPacks plan d r globals ks p = some (ks', p')) :
    List.Forall₂ ScriptPack.SameScripts ks ks' := by
  induction ks generalizing p ks' with
  | nil =>
    cases h
    exact .nil
  | cons k ks ih =>
    obtain ⟨k₁, p₁, ks₁, hk, hks, rfl⟩ := Manager.loadPacks_cons_eq_some h
    refine .cons ?_ (ih hks)
    have hscripts := (Prod.ext_iff.mp (Manager.accounted_of_loadPack hk).2).2
    rcases Manager.loadPack_eq_some hk with ⟨f, -, rfl, -⟩ | ⟨c, c', us, -, -, rfl⟩
    · exact ⟨rfl, rfl, rfl, hscripts.symm⟩
    · exact ⟨rfl, rfl, rfl, hscripts.symm⟩

namespace Scene

variable (S : Scene ω γ κ)

/-- What an engine and a runner must grant so that what happens in a context depends on the context
only: what is alike stays alike, whatever else has happened before. -/
structure Uniform (r : Runner ω γ) (e : Engine ω γ κ) : Prop where
  invoke : ∀ ρ c c' s s' args args', S.code ρ c c' → S.Agree ρ s s' →
    List.Forall₂ (Value.Linked ρ) args args' →
    S.Alike Outcome.Linked ρ s s' (r.invoke c args) (r.invoke c' args')
  create : ∀ ρ pack restriction globals globals',
    Table.Matches (Global.Matches (Function.Linked ρ)) globals globals' →
    (∃ f, e.create ⟨pack, globals, restriction⟩ = .error f ∧
      e.create ⟨pack, globals', restriction⟩ = .error f) ∨
    ∃ c c', e.create ⟨pack, globals, restriction⟩ = .ok c ∧
      e.create ⟨pack, globals', restriction⟩ = .ok c' ∧ S.context ρ c c'
  run : ∀ ρ c c' s s' location text, S.context ρ c c' → S.Agree ρ s s' →
    S.Alike (fun ρ' x y => x.1 = y.1 ∧ S.context ρ' x.2 y.2) ρ s s' (e.run c location text)
      (e.run c' location text)
  has : ∀ ρ c c', S.context ρ c c' → e.has c = e.has c'
  names : ∀ ρ c c', S.context ρ c c' → e.names c = e.names c'
  global : ∀ ρ c c' s s' name, S.context ρ c c' → S.Agree ρ s s' →
    S.Alike (fun ρ' => Option.Rel (Value.Linked ρ')) ρ s s' (e.global c name) (e.global c' name)
  reads : ∀ c name, (e.global c name).Reads

end Scene

namespace Scene

variable {S : Scene ω γ κ} {base base' : List (Entry Listener)} {ρ : Link} {w v : World ω γ}

/-- What was compared with its acts is compared with its deeds. -/
theorem Keeps.deeds {α β : Type} {A : Link → α → β → Prop} {x : Option (α × List (Act ω γ))}
    {y : Option (β × List (Act ω γ))} (h : S.Keeps A base base' ρ w v x y) :
    S.Keeps A base base' ρ w v (x.map fun s => (s.1, (s.2.map .act : List (Deed ω γ κ))))
      (y.map fun s => (s.1, (s.2.map .act : List (Deed ω γ κ)))) where
  stops hstrict hx := by
    rw [Option.map_eq_none_iff] at hx ⊢
    exact h.stops hstrict hx
  answers a ds hx hquiet := by
    obtain ⟨⟨a', as⟩, hx', heq⟩ := Option.map_eq_some_iff.mp hx
    cases heq
    obtain ⟨ρ', b, bs, hy, hreached, hagree, hab⟩ :=
      h.answers _ _ hx' (hquiet.imp_right Deed.quiet_map_act.mp)
    refine ⟨ρ', b, bs.map .act, by rw [hy]; rfl,
      ⟨?_, ?_, ?_, fun ht => Deed.tame_map_act.mpr (hreached.tame ht)⟩, ?_, hab⟩
    · rw [Deed.stepReplay_map_act, Deed.stepReplay_map_act]
      exact hreached.grows
    · rw [Deed.stepReplay_map_act, Deed.stepReplay_map_act]
      exact hreached.twin
    · rw [Deed.tallies_map_act, Deed.tallies_map_act]
      exact hreached.tallies
    · rw [Deed.stepReplay_map_act, Deed.stepReplay_map_act]
      exact hagree

end Scene

namespace Scene

variable {S : Scene ω γ κ} {base base' : List (Entry Listener)} {ρ : Link} {w v : World ω γ}

variable (S) in
/-- The same has come out, in contexts in which the same has happened. -/
def Ended {α : Type} (ρ : Link) (x y : α × κ) : Prop := x.1 = y.1 ∧ S.context ρ x.2 y.2

theorem Uniform.calls {r : Runner ω γ} {e : Engine ω γ κ} (h : S.Uniform r e) : S.Calls r.report :=
  calls_callAt h.invoke r.depth

section

variable {plan : Plan ω γ κ} {r : Runner ω γ} (hr : S.Uniform r plan.engine)
include hr

/-! ## Units -/

theorem keeps_unit (pack : String) (u : ScriptUnit) {c c' : κ} (hc : S.context ρ c c')
    (htwin : S.Twin base base' ρ w v) (hagree : S.Agree ρ w.state v.state) :
    S.Keeps S.Ended base base' ρ w v
      (Manager.unitTale plan r pack u c w) (Manager.unitTale plan r pack u c' v) := by
  by_cases htext : ∃ text, u.prepared = some (.ok text)
  · obtain ⟨text, htext⟩ := htext
    have hhanded : S.Reached base base' ρ w v ρ [Deed.handed pack u.location text c]
        [Deed.handed pack u.location text c'] :=
      .of_sameCore htwin (.refl _ _) (.refl _ _) rfl (Step.tame_singleton rfl)
    rw [Manager.unitTale_of_text pack htext, Manager.unitTale_of_text pack htext]
    refine Keeps.after hhanded (Keeps.andThen (keeps_run hr.calls
      (hr.run ρ c c' _ _ u.location text hc hagree) rfl rfl htwin).deeds ?_)
    rintro ρ' ⟨ended, c₁⟩ ⟨_, c₁'⟩ ds ds' - - hreached hagree' ⟨rfl, hc₁⟩
    have hfinished : S.Reached base base' ρ' _ _ ρ' [Deed.finished ended c₁]
        [Deed.finished ended c₁'] :=
      .of_sameCore hreached.twin (.refl _ _) (.refl _ _) rfl (Step.tame_singleton rfl)
    exact (Keeps.pure hfinished.twin hagree' ⟨rfl, hc₁⟩).after hfinished
  · obtain ⟨f, hf⟩ : ∃ f, ∀ (c : κ) (w : World ω γ),
        Manager.unitTale plan r pack u c w = some ((u.fail f, c), []) :=
      Manager.unitTale_of_no_text pack (not_exists.mp htext)
    rw [hf, hf]
    exact .pure htwin hagree ⟨rfl, hc⟩

/-- **Units with the same scripts run alike.** -/
theorem keeps_units (pack : String) {us us' : List ScriptUnit}
    (hus : us.map ScriptUnit.script = us'.map ScriptUnit.script) {c c' : κ}
    (hc : S.context ρ c c') {p q : Manager.Pass ω γ} (htwin : S.Twin base base' ρ p.world q.world)
    (hagree : S.Agree ρ p.world.state q.world.state) :
    S.Keeps (fun ρ' x y => S.Ended ρ' x.1 y.1) base base' ρ p.world q.world
      (Manager.unitsTale plan S.desk r pack us c p)
      (Manager.unitsTale plan S.desk r pack us' c' q) := by
  induction us generalizing us' c c' p q ρ with
  | nil =>
    obtain rfl : us' = [] := List.map_eq_nil_iff.mp hus.symm
    exact .pure htwin hagree ⟨rfl, hc⟩
  | cons u us ih =>
    obtain ⟨u', us', rfl, hu, hus⟩ := List.map_eq_cons_iff.mp hus.symm
    have hreset : u'.reset = u.reset := by
      injection hu with hfile hprepared
      rw [ScriptUnit.reset, ScriptUnit.reset, hfile, hprepared]
    have hlocation : u'.location = u.location := congrArg (fun u => u.file.location) hreset
    let switch : List (Deed ω γ κ) := [.switched S.desk (some u.location)]
    have hbegun : S.Reached base base' ρ p.world q.world ρ switch switch :=
      .of_sameCore htwin (.setUnit _ _ _) (.setUnit _ _ _) rfl (Step.tame_singleton rfl)
    have hbegin : Manager.beginUnit S.desk q u' = Manager.beginUnit S.desk q u := by
      rw [Manager.beginUnit, hlocation, Manager.beginUnit]
    rw [Manager.unitsTale_cons, Manager.unitsTale_cons, hreset, hlocation, hbegin]
    refine Keeps.after hbegun (Keeps.andThen
      (keeps_unit hr pack u.reset hc hbegun.twin hagree) ?_)
    rintro ρ₁ ⟨u₁, c₁⟩ ⟨_, c₁'⟩ ds ds' - - hreached hagree₁ ⟨rfl, hc₁⟩
    have hreport : ∀ w, World.SameCore S.desk w
        (Step.replay (Manager.reportDeeds plan S.desk u₁ : List (Deed ω γ κ)) w) := fun w =>
      Manager.sameCore_reportDeeds w u₁
    have hreported := Reached.of_sameCore hreached.twin (hreport _) (hreport _)
      ((Deed.tallies_of_said S.desk (fun _ => Manager.said_of_mem_reportDeeds) _).trans
        (Deed.tallies_of_said S.desk (fun _ => Manager.said_of_mem_reportDeeds) _).symm)
      (Deed.tame_of_said fun _ => Manager.said_of_mem_reportDeeds)
    have hrest := ih hus.symm hc₁
      (p := Manager.endUnit plan S.desk p (Step.replay ds (Manager.beginUnit S.desk p u)) u₁)
      (q := Manager.endUnit plan S.desk q (Step.replay ds' (Manager.beginUnit S.desk q u)) u₁)
    rw [Manager.world_endUnit, Manager.world_endUnit] at hrest
    have hagree₂ := hagree₁.congr (hreport _) (hreport _)
    refine Keeps.map ((hrest hreported.twin hagree₂).after hreported) ?_
    rintro ρ' ⟨⟨us₁, c₂⟩, p₂⟩ ⟨⟨_, c₂'⟩, p₂'⟩ es es' - ⟨rfl, hc₂⟩
    exact ⟨rfl, hc₂⟩

/-! ## Packs -/

omit hr in
variable (S) in
/-- Packs with units that fared alike, in contexts in which the same has happened. -/
structure PackAlike (ρ : Link) (k k' : ScriptPack κ) : Prop where
  name : k.name = k'.name
  description : k.description = k'.description
  root : k.root = k'.root
  units : k.units = k'.units
  context : Option.Rel (S.context ρ) k.context k'.context

theorem keeps_pack {globals globals' : Table Global}
    (hglobals : Table.Matches (Global.Matches (Function.Linked ρ)) globals globals')
    {k k' : ScriptPack κ} (hk : k.SameScripts k') {p p' : Manager.Pass ω γ}
    (htwin : S.Twin base base' ρ p.world p'.world)
    (hagree : S.Agree ρ p.world.state p'.world.state) :
    S.Keeps (fun ρ' x y => S.PackAlike ρ' x.1 y.1) base base' ρ p.world p'.world
      (Manager.packTale plan S.desk r globals k p)
      (Manager.packTale plan S.desk r globals' k' p') := by
  rcases hr.create ρ k.name plan.restriction globals globals' hglobals with
    ⟨f, hf, hf'⟩ | ⟨c, c', hc, hc', hcontext⟩
  · have hunits : (k.units.map fun u => u.fail (.script f)) =
        k'.units.map fun u => u.fail (.script f) := by
      have hfail : ∀ us : List ScriptUnit, (us.map fun u => u.fail (.script f)) =
          (us.map ScriptUnit.script).map fun s => ⟨s.1, s.2, .failed (.script f)⟩ := by
        intro us
        rw [List.map_map]
        rfl
      rw [hfail, hfail, hk.units]
    -- the lines about the pack and its units say the same on both sides, and change nothing else
    have hsaid : ∀ k : ScriptPack κ, ∀ b ∈ (.said S.desk .error
        ("Failed to create context for pack " ++ k.name ++ ": " ++ f.outline.line) ::
          Manager.failDeeds plan S.desk f k.units : List (Deed ω γ κ)),
        ∃ level text, b = .said S.desk level text := by
      intro k b hb
      rcases List.mem_cons.mp hb with rfl | hb
      · exact ⟨_, _, rfl⟩
      · obtain ⟨u, -, hu⟩ := List.mem_flatMap.mp hb
        exact Manager.said_of_mem_reportDeeds hu
    obtain ⟨q, hq⟩ := Manager.packTale_of_error (d := S.desk) (r := r) hf p
    obtain ⟨q', hq'⟩ := Manager.packTale_of_error (d := S.desk) (r := r) (hk.name ▸ hf') p'
    have hw := Manager.sameCore_replay (e := S.desk) (hsaid k) p.world
    have hv := Manager.sameCore_replay (e := S.desk) (hsaid k') p'.world
    have hreached := Reached.of_sameCore htwin hw hv
      ((Deed.tallies_of_said S.desk (hsaid k) _).trans
        (Deed.tallies_of_said S.desk (hsaid k') _).symm) (Deed.tame_of_said (hsaid k))
    let failed (k : ScriptPack κ) : ScriptPack κ :=
      { k with units := k.units.map fun u => u.fail (.script f), context := none }
    have hpure : S.Keeps (fun ρ' x y => S.PackAlike ρ' x.1 y.1) base base' ρ _ _
        (some ((failed k, q), ([] : List (Deed ω γ κ))))
        (some ((failed k', q'), ([] : List (Deed ω γ κ)))) :=
      .pure hreached.twin (hagree.congr hw hv) ⟨hk.name, hk.description, hk.root, hunits, .none⟩
    simpa [hq, hq', failed] using hpure.after hreached
  · obtain ⟨name, description, root, units, context⟩ := k'
    obtain rfl : k.name = name := hk.name
    rw [Manager.packTale_of_ok hc,
      Manager.packTale_of_ok (k := ⟨k.name, description, root, units, context⟩) hc']
    refine Keeps.map (keeps_units hr k.name hk.units hcontext htwin hagree) ?_
    rintro ρ' ⟨⟨us, c₁⟩, q⟩ ⟨⟨_, c₁'⟩, q'⟩ ds ds' - ⟨rfl, hc₁⟩
    exact ⟨rfl, hk.description, hk.root, rfl, .some hc₁⟩

omit hr in
theorem PackAlike.mono {ρ' : Link} (h : ρ ≤ ρ') {k k' : ScriptPack κ} (hk : S.PackAlike ρ k k') :
    S.PackAlike ρ' k k' where
  name := hk.name
  description := hk.description
  root := hk.root
  units := hk.units
  context := rel_imp (fun _ _ => S.context_mono h) hk.context

/-- **Packs with the same scripts fare alike.** -/
theorem keeps_packs {globals globals' : Table Global}
    (hglobals : Table.Matches (Global.Matches (Function.Linked ρ)) globals globals')
    {ks ks' : List (ScriptPack κ)} (hks : List.Forall₂ ScriptPack.SameScripts ks ks')
    {p q : Manager.Pass ω γ} (htwin : S.Twin base base' ρ p.world q.world)
    (hagree : S.Agree ρ p.world.state q.world.state) :
    S.Keeps (fun ρ' x y => List.Forall₂ (S.PackAlike ρ') x.1 y.1) base base' ρ p.world q.world
      (Manager.packsTale plan S.desk r globals ks p)
      (Manager.packsTale plan S.desk r globals' ks' q) := by
  induction hks generalizing p q ρ with
  | nil => exact .pure htwin hagree .nil
  | @cons k k' ks ks' hk _ ih =>
    rw [Manager.packsTale_cons, Manager.packsTale_cons]
    refine Keeps.andThen (keeps_pack hr hglobals hk htwin hagree) ?_
    rintro ρ₁ ⟨k₁, p₁⟩ ⟨k₁', p₁'⟩ ds ds' hx hy hreached hagree₁ hk₁
    have hworld := Manager.world_of_packTale hx
    have hworld' := Manager.world_of_packTale hy
    have htwin₁ := hreached.twin
    rw [hworld, hworld'] at hagree₁ htwin₁ ⊢
    have hle := hreached.grows.le
    refine Keeps.map (ih (hglobals.imp fun _ _ => .mono hle) htwin₁ hagree₁) ?_
    rintro ρ' ⟨ks₁, p₂⟩ ⟨ks₁', p₂'⟩ es es' hle' hks₁
    exact .cons (hk₁.mono hle') hks₁

end

end Scene

end PackHost
