import PackHost.Proofs.Manager.Trace
import PackHost.Proofs.Manager.View
import PackHost.Proofs.Twin.Load

/-!
# What is seen of loads side by side

Contexts in which the same has happened have the same globals, and buses that are alike have the
same events. So loads that begin alike look the same in the end: `Scene.loads_alike`.
-/

namespace PackHost

open Event Pack

variable {ω γ κ : Type}

namespace Scene

variable {S : Scene ω γ κ} {base base' : List (Entry Listener)} {ρ : Link} {w v : World ω γ}
  {r : Runner ω γ} {m m' : Manager ω γ κ}

/-! ## Contexts -/

theorem sameGlobals {e : Engine ω γ κ} (hr : S.Uniform r e) (htwin : S.Twin base base' ρ w v)
    (hagree : S.Agree ρ w.state v.state) {c c' : κ} (hc : S.context ρ c c') :
    SameGlobals e r w v c c' where
  has := hr.has ρ c c' hc
  names := hr.names ρ c c' hc
  values name := by
    obtain ⟨x, as, hx, hquiet⟩ := (hr.reads c name).run r.report w
    obtain ⟨ρ', y, bs, hy, -, -, hxy⟩ :=
      (keeps_run hr.calls (hr.global ρ c c' _ _ name hc hagree) rfl rfl htwin).answers x as hx
        (.inr hquiet)
    refine ⟨x, y, replay as w, replay bs v, ?_, ?_, rel_imp (fun _ _ => .imp fun _ _ h => h.1) hxy⟩
    · rw [← r.forget_run, Journal.forget, hx]
      rfl
    · rw [← r.forget_run, Journal.forget, hy]
      rfl

theorem sameView_pack {e : Engine ω γ κ} (hr : S.Uniform r e) (htwin : S.Twin base base' ρ w v)
    (hagree : S.Agree ρ w.state v.state) {k k' : ScriptPack κ} (hk : S.PackAlike ρ k k') :
    k.SameView e r w v k' where
  name := hk.name
  description := hk.description
  root := hk.root
  units := hk.units
  context := rel_imp (fun _ _ => sameGlobals hr htwin hagree) hk.context

/-! ## Buses -/

/-- Buses that hold the same have as many handlers of every event. -/
theorem Twin.count (h : S.Twin base base' ρ w v) (hstrict : S.strict) (event : String) :
    (w.desk S.desk).bus.count event = (v.desk S.desk).bus.count event :=
  (h.registered hstrict event).length_eq

theorem Twin.events (h : S.Twin base base' ρ w v) (hstrict : S.strict) :
    (w.desk S.desk).bus.events = (v.desk S.desk).bus.events := by
  obtain ⟨log, log', -, -, hlog, hlog', -⟩ := h.bus
  exact hlog.events_eq hlog' (h.count hstrict)

/-! ## Loads -/

/-- Packs with the same scripts are granted contexts alike, and so hand over the same. -/
theorem handouts_eq {plan : Plan ω γ κ} (hr : S.Uniform r plan.engine)
    {globals globals' : Table Global}
    (hglobals : Table.Matches (Global.Matches (Function.Linked ρ)) globals globals')
    {ks ks' : List (ScriptPack κ)} (hks : List.Forall₂ ScriptPack.SameScripts ks ks') :
    (ks.filter (plan.grants globals)).flatMap ScriptPack.handouts =
      (ks'.filter (plan.grants globals')).flatMap ScriptPack.handouts := by
  have hgrants : ∀ {k k' : ScriptPack κ}, k.SameScripts k' →
      plan.grants globals k = plan.grants globals' k' := by
    intro k k' hk
    rw [Plan.grants, Plan.grants, ← hk.name]
    rcases hr.create ρ k.name plan.restriction globals globals' hglobals with
      ⟨f, hf, hf'⟩ | ⟨c, c', hc, hc', -⟩
    · rw [hf, hf']
    · rw [hc, hc']
      rfl
  have hhandouts : ∀ {k k' : ScriptPack κ}, k.SameScripts k' → k.handouts = k'.handouts := by
    intro k k' hk
    have hscripts : ∀ k : ScriptPack κ, k.handouts =
        (k.units.map ScriptUnit.script).filterMap fun s =>
          (ScriptUnit.mk s.1 s.2 .pending).handout?.map fun t => (k.name, t) := by
      intro k
      rw [ScriptPack.handouts, List.filterMap_map]
      rfl
    rw [hscripts, hscripts, hk.units, hk.name]
  induction hks with
  | nil => rfl
  | @cons k k' ks ks' hk _ ih =>
    rw [List.filter_cons, List.filter_cons, hgrants hk]
    split
    · rw [List.flatMap_cons, List.flatMap_cons, hhandouts hk, ih]
    · exact ih

theorem units_eq {ks ks' : List (ScriptPack κ)} (h : List.Forall₂ (S.PackAlike ρ) ks ks') :
    ks.flatMap ScriptPack.units = ks'.flatMap ScriptPack.units := by
  induction h with
  | nil => rfl
  | cons hk _ ih => rw [List.flatMap_cons, List.flatMap_cons, hk.units, ih]

/-- **Loads that begin alike look the same in the end.** -/
theorem loads_alike (hstrict : S.strict) (hr : S.Uniform r m.plan.engine) (hplan : m'.plan = m.plan)
    (hdesk : m.desk = S.desk) (hdesk' : m'.desk = S.desk)
    (hpacks : List.Forall₂ ScriptPack.SameScripts (Manager.preparePacks m.plan m.packs)
      (Manager.preparePacks m.plan m'.packs))
    (hlisteners : List.Forall₂ (Function.Linked ρ) (w.lifecycle.handlers scriptsLoaded)
      (v.lifecycle.handlers scriptsLoaded))
    (hwritten : (Registrar.collect m.plan.kind w.registrars .empty).1.Matches (Function.Linked ρ)
      (Registrar.collect m.plan.kind v.registrars .empty).1)
    (htwin : S.Twin base base' ρ (w.dropOwned S.desk) (v.dropOwned S.desk))
    (hagree : S.Agree ρ w.state v.state) :
    (m.load r w = none → m'.load r v = none) ∧
    ∀ m₁ w₁, m.load r w = some (m₁, w₁) → ∃ m₂ v₂ ds es, m'.load r v = some (m₂, v₂) ∧
      m.chronicle r w = some ds ∧ m'.chronicle r v = some es ∧ m₁.SameView r w₁ m₂ v₂ ∧
      Deed.handings ds = Deed.handings es ∧
      Step.tallies S.desk w ds = Step.tallies S.desk v es ∧
      (S.tame → Step.Tame S.desk ds) ∧
      S.Kept (ρ.HasRight .realm) (w.dropOwned S.desk) w₁ := by
  obtain ⟨ρ₁, hgathered⟩ := gathered_collect m.plan.kind (w := w.dropOwned S.desk)
    (v := v.dropOwned S.desk) hwritten htwin hagree
  have hgather : m.gather w = (w.dropOwned S.desk).collect S.desk m.plan.kind := by
    rw [Manager.gather, hdesk]
  have hgather' : m'.gather v = (v.dropOwned S.desk).collect S.desk m.plan.kind := by
    rw [Manager.gather, hdesk', hplan]
  rw [← hgather, ← hgather'] at hgathered
  have hgrows := hgathered.grows
  have hlisteners₁ : List.Forall₂ (Function.Linked ρ₁)
      ((m.gather w).2.lifecycle.handlers scriptsLoaded)
      ((m'.gather v).2.lifecycle.handlers scriptsLoaded) := by
    rw [hgrows.left.lifecycle, hgrows.right.lifecycle]
    exact hlisteners.imp fun _ _ => .mono hgrows.le
  have htale := keeps_tale hr hplan hdesk hdesk' hpacks hlisteners₁ hgathered.registry
    hgathered.twin hgathered.agree
  rw [Manager.load_eq_tale, Manager.load_eq_tale]
  constructor
  · intro hnone
    rw [Option.map_eq_none_iff] at hnone ⊢
    exact htale.stops hstrict hnone
  · intro m₁ w₁ hload
    obtain ⟨⟨⟨ks, p⟩, ds⟩, hx, hload⟩ := Option.map_eq_some_iff.mp hload
    cases hload
    obtain ⟨ρ₂, ⟨ks', p'⟩, es, hy, hreached, hagree₂, hks⟩ :=
      htale.answers (ks, p) ds hx (.inl hstrict)
    have hchronicle : m.chronicle r w =
        some ([.forgot m.desk, .gathered m.desk m.plan.kind] ++ ds) := by
      rw [Manager.chronicle_eq_tale, hx]
      rfl
    have hchronicle' : m'.chronicle r v =
        some ([.forgot m'.desk, .gathered m'.desk m'.plan.kind] ++ es) := by
      rw [Manager.chronicle_eq_tale, hy]
      rfl
    -- before the namespace is written there is no post
    have hopened : ∀ (m : Manager ω γ κ) (w : World ω γ) (ds : List (Deed ω γ κ)),
        Step.tallies S.desk w ([.forgot m.desk, .gathered m.desk m.plan.kind] ++ ds) =
          Step.tallies S.desk (m.gather w).2 ds := by
      intro m w ds
      rw [Step.tallies_append]
      rfl
    refine ⟨_, _, _, _, by rw [hy]; rfl, hchronicle, hchronicle', ?_, ?_, ?_, fun ht => ?_, ?_⟩
    · have hunits := units_eq hks
      obtain ⟨herrors, hsummary⟩ := Manager.account_of_tale hx
      obtain ⟨herrors', hsummary'⟩ := Manager.account_of_tale hy
      have hregistry := hgathered.registry.imp fun _ _ hfg => hfg.1
      refine ⟨rfl, ?_, hregistry.bindings, hregistry.constants, ?_, ?_, ?_, fun event => ?_⟩
      · exact List.Forall₂.imp (fun _ _ => sameView_pack hr hreached.twin hagree₂) hks
      · exact herrors.trans (hunits ▸ herrors'.symm)
      · exact hsummary.trans (hunits ▸ hsummary'.symm)
      · show ((Step.replay ds _).desk m.desk).bus.events = ((Step.replay es _).desk m'.desk).bus.events
        rw [hdesk, hdesk']
        exact hreached.twin.events hstrict
      · show ((Step.replay ds _).desk m.desk).bus.count event =
          ((Step.replay es _).desk m'.desk).bus.count event
        rw [hdesk, hdesk']
        exact hreached.twin.count hstrict event
    · rw [Manager.handings_of_chronicle hchronicle, Manager.handings_of_chronicle hchronicle',
        hplan]
      exact handouts_eq hr hgathered.registry.merged hpacks
    · rw [hopened, hopened]
      exact hreached.tallies
    · exact Step.tame_append.mpr ⟨fun b hb => by
        rcases List.mem_pair.mp hb with rfl | rfl <;> rfl, hreached.tame ht⟩
    · exact (hgrows.trans hreached.grows).left

end Scene

end PackHost
