import PackHost.Proofs.Manager.Generation
import PackHost.Proofs.Manager.HostCall
import PackHost.Proofs.Manager.Trace
import PackHost.Proofs.World.Console

/-!
# Whom lines are attributed to

The desk of a manager says which unit is being run, and what scripts write goes behind its location.
Which unit really is being run follows from the deeds: it is the one whose text the engine was given
and is not yet done with. `Deed.Fair` says that the desk names this unit whenever scripts or
handlers do anything, whatever it may name in between. The main statement is `load_attributes`.
-/

namespace PackHost

open Pack

variable {ω γ κ : Type}

/-- A message behind the location of a unit, if there is one. -/
def headed (unit : Option String) (message : String) : String :=
  match unit with
  | some location => location ++ ": " ++ message
  | none => message

theorem Desk.annotate_eq_headed (k : Desk) (message : String) :
    k.annotate message = headed k.currentUnit message := rfl

theorem World.unit_setUnit {w : World ω γ} {d : Nat} (seated : d < w.desks.size)
    (location : Option String) : ((w.setUnit d location).desk d).currentUnit = location := by
  rw [setUnit, desk_changeDesk, if_pos ⟨rfl, seated⟩]

/-- A script that writes a line adds it to the console behind the location of the unit that the desk
names. -/
theorem Act.lines_told {w : World ω γ} {d : Nat} (seated : d < w.desks.size) {unit : Option String}
    (hunit : (w.desk d).currentUnit = unit) (level : Level) (message : String) :
    (((told d level message : Act ω γ).apply w).desk d).lines =
      ⟨level, headed unit message⟩ :: (w.desk d).lines := by
  rw [lines_apply _ seated, line?, if_pos rfl, Desk.annotate_eq_headed, hunit]
  rfl

/-- Whatever scripts and handlers do from here on, a line that one of them writes goes behind the
location of the unit, if there is one. -/
def World.Attributes (w : World ω γ) (d : Nat) (unit : Option String) : Prop :=
  ∀ (as : List (Act ω γ)) level message,
    (((Act.told d level message : Act ω γ).apply (replay as w)).desk d).lines =
      ⟨level, headed unit message⟩ :: ((replay as w).desk d).lines

theorem World.attributes_of_unit {w : World ω γ} {d : Nat} {unit : Option String}
    (seated : d < w.desks.size) (hunit : (w.desk d).currentUnit = unit) : w.Attributes d unit := by
  intro as level message
  have hgoes := replay_continues as w
  exact Act.lines_told (hgoes.1.symm ▸ seated) ((hgoes.2 d).unit.trans hunit) level message

/-! ## Fair deeds -/

namespace Deed

def running (unit : Option String) : Deed ω γ κ → Option String
  | .handed _ location _ _ => some location
  | .finished .. => none
  | _ => unit

/-- The location of the unit that is being run after the deeds. -/
def atWork (unit : Option String) (ds : List (Deed ω γ κ)) : Option String := ds.foldl running unit

/-- Whenever the deeds are those of scripts and handlers, the desk names the unit that is being
run. -/
def Faithful (d : Nat) : Option String → World ω γ → List (Deed ω γ κ) → Prop
  | _, _, [] => True
  | unit, w, a :: ds =>
    ((∃ act, a = .act act) → (w.desk d).currentUnit = unit) ∧
      Faithful d (a.running unit) (a.apply w) ds

section

variable {d : Nat} {unit : Option String} {w : World ω γ} {ds es : List (Deed ω γ κ)}

theorem atWork_append (unit : Option String) (ds es : List (Deed ω γ κ)) :
    atWork unit (ds ++ es) = atWork (atWork unit ds) es :=
  List.foldl_append

theorem faithful_append : Faithful d unit w (ds ++ es) ↔
    Faithful d unit w ds ∧ Faithful d (atWork unit ds) (replay ds w) es := by
  induction ds generalizing unit w with
  | nil => exact (true_and _).symm ▸ Iff.rfl
  | cons a ds ih =>
    simp only [List.cons_append, Faithful, ih, and_assoc]
    rfl

theorem atWork_map_act (unit : Option String) (as : List (Act ω γ)) :
    atWork unit (as.map act : List (Deed ω γ κ)) = unit := by
  induction as with
  | nil => rfl
  | cons a as ih => exact ih

/-- Acts change nothing about the unit that the desk names. -/
theorem faithful_map_act (h : (w.desk d).currentUnit = unit) (as : List (Act ω γ)) :
    Faithful d unit w (as.map act : List (Deed ω γ κ)) := by
  induction as generalizing w with
  | nil => trivial
  | cons a as ih => exact ⟨fun _ => h, ih ((((a.continues w).2 d).unit).trans h)⟩

/-- **A line of a script goes behind the location of the unit that is being run.** -/
theorem Faithful.lines (seated : d < w.desks.size) {level : Level} {message : String}
    (h : Faithful d unit w (ds ++ .act (.told d level message) :: es)) :
    ((replay (ds ++ [.act (.told d level message)]) w).desk d).lines =
      ⟨level, headed (atWork unit ds) message⟩ :: ((replay ds w).desk d).lines := by
  have hunit := (faithful_append.mp h).2.1 ⟨_, rfl⟩
  rw [replay_append]
  exact Act.lines_told ((size_replay ds w).symm ▸ seated) hunit level message

end

/-- Whether the deed neither is an act nor begins or ends the run of a unit. -/
def isSilent : Deed ω γ κ → Bool
  | .act _ => false
  | .handed .. => false
  | .finished .. => false
  | _ => true

theorem isSilent_of_isOwn {a : Deed ω γ κ} (h : a.isOwn) : a.isSilent := by
  cases a <;> first | rfl | cases h

/-- Faithful deeds before and after which no unit is being run. -/
structure Fair (d : Nat) (w : World ω γ) (ds : List (Deed ω γ κ)) : Prop where
  faithful : Faithful d none w ds
  ended : atWork none ds = none

namespace Fair

variable {d : Nat} {w : World ω γ} {ds es : List (Deed ω γ κ)}

theorem nil (d : Nat) (w : World ω γ) : Fair d w ([] : List (Deed ω γ κ)) := ⟨trivial, rfl⟩

theorem append (h : Fair d w ds) (h' : Fair d (replay ds w) es) : Fair d w (ds ++ es) := by
  refine ⟨faithful_append.mpr ⟨h.faithful, ?_⟩, ?_⟩
  · rw [h.ended]
    exact h'.faithful
  · rw [atWork_append, h.ended, h'.ended]

theorem cons {a : Deed ω γ κ} (ha : a.isSilent) (h : Fair d (a.apply w) ds) :
    Fair d w (a :: ds) := by
  have hact : ¬∃ act, a = .act act := by
    rintro ⟨act, rfl⟩
    cases ha
  have hrunning : a.running none = none := by
    cases a <;> first | rfl | cases ha
  refine ⟨⟨fun h => absurd h hact, ?_⟩, ?_⟩
  · rw [hrunning]
    exact h.faithful
  · rw [atWork, List.foldl_cons, hrunning]
    exact h.ended

theorem of_isSilent (h : ∀ a ∈ ds, a.isSilent) (d : Nat) (w : World ω γ) : Fair d w ds := by
  induction ds generalizing w with
  | nil => exact .nil d w
  | cons a ds ih =>
    obtain ⟨ha, hds⟩ := List.forall_mem_cons.mp h
    exact .cons ha (ih hds _)

theorem acts (h : (w.desk d).currentUnit = none) (as : List (Act ω γ)) :
    Fair d w (as.map act : List (Deed ω γ κ)) :=
  ⟨faithful_map_act h as, atWork_map_act none as⟩

theorem run {location : String} (h : (w.desk d).currentUnit = some location) (pack text : String)
    (c c' : κ) (as : List (Act ω γ)) (ended : Outcome Unit) :
    Fair d w (.handed pack location text c :: as.map act ++ [.finished ended c']) := by
  refine ⟨⟨fun hact => ?_, faithful_append.mpr ⟨faithful_map_act h as, fun hact => ?_, trivial⟩⟩,
    ?_⟩
  · obtain ⟨act, hact⟩ := hact
    cases hact
  · obtain ⟨act, hact⟩ := hact
    cases hact
  · rw [atWork_append]
    rfl

end Fair

end Deed

namespace Manager

section

variable {plan : Plan ω γ κ} {d : Nat} {r : Runner ω γ}

theorem fair_reportDeeds (u : ScriptUnit) (w : World ω γ) :
    Deed.Fair d w (reportDeeds plan d u : List (Deed ω γ κ)) :=
  .of_isSilent (fun _ ha => Deed.isSilent_of_isOwn (isOwn_of_mem_reportDeeds ha)) d w

theorem fair_unitsDeeds {pack : String} {us us' : List ScriptUnit} {c c' : κ} {p p' : Pass ω γ}
    {ds : List (Deed ω γ κ)} (seated : d < p.world.desks.size)
    (h : runUnits plan d r us c p = some (us', c', p'))
    (hds : unitsDeeds plan d r pack us c p = some ds) : Deed.Fair d p.world ds := by
  induction us generalizing c p us' ds with
  | nil =>
    cases hds
    exact .nil d _
  | cons u us ih =>
    obtain ⟨u₁, c₁, w₁, es, us₁, hnoting, hus⟩ := runUnits_cons_noting pack h
    simp only [unitsDeeds, hnoting] at hds
    obtain ⟨rest, hrest, rfl⟩ := Option.map_eq_some_iff.mp hds
    have hworld := replay_noting hnoting
    -- the desk names the unit from here on, whatever it named before
    have hrun : Deed.Fair d (beginUnit d p u) es := by
      have hunit : ((beginUnit d p u).desk d).currentUnit = some u.location :=
        World.unit_setUnit seated _
      rcases run_noting_eq_some hnoting with
        ⟨text, ended, as, -, -, -, -, rfl⟩ | ⟨f, -, -, -, -, rfl⟩
      · exact .run hunit pack text c c₁ as ended
      · exact .nil d _
    have hseated : d < w₁.desks.size := by
      rw [← hworld, Deed.size_replay, beginUnit, World.setUnit, World.size_changeDesk]
      exact seated
    have hlater :
        Deed.Fair d (Deed.replay (reportDeeds plan d u₁ : List (Deed ω γ κ)) w₁) rest := by
      have hfair := ih (p := endUnit plan d p w₁ u₁) ?_ hus hrest
      · rwa [endUnit, world_report] at hfair
      · rw [endUnit, world_report, Deed.size_replay]
        exact hseated
    have hreport : Deed.Fair d w₁ (reportDeeds plan d u₁ : List (Deed ω γ κ)) :=
      fair_reportDeeds u₁ w₁
    refine .cons rfl ((hrun.append ?_).append ?_)
    · exact hworld.symm ▸ hreport
    · rw [Deed.replay_append]
      exact hworld.symm ▸ hlater

theorem size_runUnits {us us' : List ScriptUnit} {c c' : κ} {p p' : Pass ω γ}
    (h : runUnits plan d r us c p = some (us', c', p')) :
    p'.world.desks.size = p.world.desks.size := by
  obtain ⟨ds, -, hworld⟩ := unitsDeeds_of_runUnits "" h
  rw [← hworld, Deed.size_replay]

theorem size_loadPacks {globals : Table Global} {ks ks' : List (ScriptPack κ)} {p p' : Pass ω γ}
    (h : loadPacks plan d r globals ks p = some (ks', p')) :
    p'.world.desks.size = p.world.desks.size := by
  obtain ⟨ds, -, hworld⟩ := packsDeeds_of_loadPacks h
  rw [← hworld, Deed.size_replay]

theorem fair_packDeeds {globals : Table Global} {k k' : ScriptPack κ} {p p' : Pass ω γ}
    {ds : List (Deed ω γ κ)} (seated : d < p.world.desks.size)
    (h : loadPack plan d r globals k p = some (k', p'))
    (hds : packDeeds plan d r globals k p = some ds) : Deed.Fair d p.world ds := by
  rcases loadPack_eq_some h with ⟨f, hf, -, -⟩ | ⟨c, c', us, hc, hus, -⟩
  · simp only [packDeeds, hf, Option.some.injEq] at hds
    rw [← hds]
    refine .cons rfl (.of_isSilent (fun a ha => ?_) d _)
    obtain ⟨u, -, hu⟩ := List.mem_flatMap.mp ha
    exact Deed.isSilent_of_isOwn (isOwn_of_mem_reportDeeds hu)
  · simp only [packDeeds, hc] at hds
    exact fair_unitsDeeds seated hus hds

theorem fair_packsDeeds {globals : Table Global} {ks ks' : List (ScriptPack κ)} {p p' : Pass ω γ}
    {ds : List (Deed ω γ κ)} (seated : d < p.world.desks.size)
    (h : loadPacks plan d r globals ks p = some (ks', p'))
    (hds : packsDeeds plan d r globals ks p = some ds) : Deed.Fair d p.world ds := by
  induction ks generalizing p ks' ds with
  | nil =>
    cases hds
    exact .nil d _
  | cons k ks ih =>
    obtain ⟨k₁, p₁, ks₁, hk, hks, -⟩ := loadPacks_cons_eq_some h
    obtain ⟨es, hes, hworld⟩ := packDeeds_of_loadPack hk
    simp only [packsDeeds, hk, hes] at hds
    obtain ⟨rest, hrest, rfl⟩ := Option.map_eq_some_iff.mp hds
    have hseated : d < p₁.world.desks.size := by
      rw [← hworld, Deed.size_replay]
      exact seated
    exact (fair_packDeeds seated hk hes).append (hworld.symm ▸ ih hseated hks hrest)

end

section

variable {m m' : Manager ω γ κ} {r : Runner ω γ} {w w' : World ω γ}

theorem size_opening (m : Manager ω γ κ) (w : World ω γ) :
    (m.opening w).world.desks.size = w.desks.size :=
  World.size_changeDesk w m.desk _

/-- No unit is the one that is being run any more when the handlers are told of the load. -/
theorem unit_closing {p : Pass ω γ} (seated : m.desk < p.world.desks.size) :
    ((m.closing p).desk m.desk).currentUnit = none := by
  have hsaid := (World.Continues.say (p.world.setUnit m.desk none) m.desk
    (m.closingLine p).level (m.closingLine p).text).2 m.desk
  exact hsaid.unit.trans (World.unit_setUnit seated none)

theorem unit_load (seated : m.desk < w.desks.size) (h : m.load r w = some (m', w')) :
    (w'.desk m.desk).currentUnit = none := by
  obtain ⟨packs, p, hp, -, hfarewell⟩ := load_eq_some h
  refine (desk_of_farewell ?_ hfarewell).1
  rwa [size_loadPacks hp, size_opening]

/-- **All deeds of a load are fair.** -/
theorem fair_chronicle {ds : List (Deed ω γ κ)} (seated : m.desk < w.desks.size)
    (hds : m.chronicle r w = some ds) : Deed.Fair m.desk w ds := by
  unfold chronicle at hds
  split at hds
  · next packs p es hload hes =>
    obtain ⟨⟨_, as⟩, has, rfl⟩ := Option.map_eq_some_iff.mp hds
    obtain ⟨es', hes', hworld⟩ := packsDeeds_of_loadPacks hload
    rw [hes] at hes'
    cases hes'
    have hseated : m.desk < (m.opening w).world.desks.size := by rwa [size_opening]
    have hpacks : Deed.Fair m.desk (m.opening w).world es := fair_packsDeeds hseated hload hes
    have hfarewell : Deed.Fair m.desk (m.closing p) (as.map .act : List (Deed ω γ κ)) := by
      refine .acts (unit_closing ?_) as
      rwa [size_loadPacks hload]
    have hopened : Deed.Fair m.desk w ([.forgot m.desk, .gathered m.desk m.plan.kind] ++ es) :=
      .cons rfl (.cons rfl hpacks)
    refine (hopened.append (.cons rfl (.cons rfl (.nil _ _)))).append ?_
    rw [Deed.replay_append, Deed.replay_append]
    exact hworld.symm ▸ hfarewell
  · cases hds

end

end Manager

/-! ## Everything that a host does -/

namespace HostCall

variable {m m' : Manager ω γ κ} {r : Runner ω γ} {w w' : World ω γ} {ds : List (Deed ω γ κ)}

/-- Whatever the host arranges leaves alone which unit is being run at the desk. -/
def SparesUnit (d : Nat) (cs : List (HostCall ω γ)) : Prop :=
  ∀ f same, .arrange f same ∈ cs → ∀ w, ((f w).desk d).currentUnit = (w.desk d).currentUnit

theorem lasting_continues : Manager.Lasting (World.Continues (ω := ω) (γ := γ)) :=
  ⟨.refl, .trans, .say, fun w _ => .refl w⟩

theorem unit_unload (m : Manager ω γ κ) (w : World ω γ) (d : Nat) :
    ((m.unload w).2.desk d).currentUnit = (w.desk d).currentUnit := by
  refine World.changeDesk_induct (R := fun k k' => k'.currentUnit = k.currentUnit) w m.desk ?_ ?_ d
  · intro k
    rfl
  · intro k
    rfl

/-- While no unit is being run, everything that a call does is fair, and no unit is being run
afterwards. -/
theorem fair_deeds {c : HostCall ω γ} (spares : SparesUnit m.desk [c])
    (seated : m.desk < w.desks.size) (idle : (w.desk m.desk).currentUnit = none)
    (h : c.perform r m w = some (m', w')) (hds : c.deeds r m w = some ds) :
    Deed.Fair m.desk w ds ∧ (w'.desk m.desk).currentUnit = none := by
  cases c with
  | discover t =>
    cases h
    cases hds
    exact ⟨.cons rfl (.nil _ _), ((lasting_continues.discover m t w).2 m.desk).unit.trans idle⟩
  | discoverPack t directory =>
    cases hds
    have hkept := ((lasting_continues.discoverPack m t directory w).2 m.desk).unit.trans idle
    simp only [perform, Option.some.injEq] at h
    rw [h] at hkept
    exact ⟨.cons rfl (.nil _ _), hkept⟩
  | load => exact ⟨Manager.fair_chronicle seated hds, Manager.unit_load seated h⟩
  | unload =>
    cases h
    cases hds
    exact ⟨.cons rfl (.nil _ _), (unit_unload m w m.desk).trans idle⟩
  | reload t =>
    obtain ⟨⟨m₁, t₁, w₁⟩, hreload, h⟩ := Option.map_eq_some_iff.mp h
    cases h
    obtain ⟨⟨m₂, w₂⟩, hload, h⟩ := Option.map_eq_some_iff.mp hreload
    cases h
    obtain ⟨es, hes, rfl⟩ := Option.map_eq_some_iff.mp hds
    have hdesk : ((m.unload w).1.discover t (m.unload w).2).1.desk = m.desk :=
      Manager.desk_discover _ t _
    have hseated : ((m.unload w).1.discover t (m.unload w).2).1.desk <
        ((m.unload w).1.discover t (m.unload w).2).2.2.desks.size := by
      rw [hdesk, (lasting_continues.discover (m.unload w).1 t (m.unload w).2).1]
      exact (World.size_changeDesk w m.desk _).symm ▸ seated
    have hfair := Manager.fair_chronicle hseated hes
    have hunit := Manager.unit_load hseated hload
    rw [hdesk] at hfair hunit
    exact ⟨.cons rfl (.cons rfl hfair), hunit⟩
  | run p =>
    obtain ⟨⟨_, as⟩, has, rfl⟩ := Option.map_eq_some_iff.mp hds
    obtain ⟨⟨_, w₁⟩, hrun, h⟩ := Option.map_eq_some_iff.mp h
    cases h
    rw [← r.forget_run, Journal.forget, has] at hrun
    cases hrun
    exact ⟨.acts idle as, ((replay_continues as w).2 m.desk).unit.trans idle⟩
  | arrange f same =>
    cases h
    cases hds
    exact ⟨.cons rfl (.nil _ _), (spares f same (List.mem_singleton.mpr rfl) w).trans idle⟩

theorem fair_deedsAll {d : Nat} {cs : List (HostCall ω γ)} (hd : m.desk = d)
    (spares : SparesUnit d cs) (seated : d < w.desks.size) (idle : (w.desk d).currentUnit = none)
    (h : performAll r cs m w = some (m', w')) (hds : deedsAll r cs m w = some ds) :
    Deed.Fair d w ds := by
  induction cs generalizing m w ds with
  | nil =>
    cases hds
    exact .nil _ _
  | cons c cs ih =>
    obtain ⟨⟨m₁, w₁⟩, hc, hcs⟩ := Option.bind_eq_some_iff.mp h
    obtain ⟨es, hes, hworld, hdesk⟩ := deeds_of_perform hc
    simp only [deedsAll, hc, hes] at hds
    obtain ⟨rest, hrest, rfl⟩ := Option.map_eq_some_iff.mp hds
    obtain ⟨hfirst, hidle⟩ : Deed.Fair d w es ∧ (w₁.desk d).currentUnit = none := by
      subst hd
      refine fair_deeds (fun f same hf => spares f same ?_) seated idle hc hes
      rw [List.mem_singleton.mp hf]
      exact List.mem_cons_self
    have hseated : d < w₁.desks.size := by
      rw [← hworld, Deed.size_replay]
      exact seated
    have hlater : Deed.Fair d w₁ rest :=
      ih (hdesk.trans hd) (fun f same hf => spares f same (List.mem_cons_of_mem c hf)) hseated hidle
        hcs hrest
    exact hfirst.append (hworld.symm ▸ hlater)

end HostCall

/-! ## The main statement -/

namespace Manager

/-- In the load, the run of the unit begins in the given context and pass: the packs and the units
before it have been dealt with, one way or another. -/
def Begins (m : Manager ω γ κ) (r : Runner ω γ) (w : World ω γ) (u : ScriptUnit) (c : κ)
    (p : Pass ω γ) : Prop :=
  let globals := (m.gather w).1.merged
  ∃ before k after loaded p₀ us us' us₁ c₀,
    preparePacks m.plan m.packs = before ++ k :: after ∧
    loadPacks m.plan m.desk r globals before (m.opening w) = some (loaded, p₀) ∧
    m.plan.engine.create ⟨k.name, globals, m.plan.restriction⟩ = .ok c₀ ∧
    k.units = us ++ u :: us' ∧ runUnits m.plan m.desk r us c₀ p₀ = some (us₁, c, p)

/-- **Lines of scripts are attributed to the unit that is being run.** From the moment at which the
run of a unit begins, whatever became of the units and packs before it, a line of a script or a
handler goes behind the location of this unit, whoever registered the handler; from the moment at
which the handlers of the end of the load are called, it goes behind nothing, and so it does after
the load. Over all that a host does with a load and after it, further loads included, every line
goes behind the location of the unit whose text the engine was given and is not yet done with. -/
theorem load_attributes (m : Manager ω γ κ) (r : Runner ω γ) {w : World ω γ}
    (seated : m.desk < w.desks.size) :
    (∀ u c p, m.Begins r w u c p →
      (beginUnit m.desk p u).Attributes m.desk (some u.location)) ∧
    (∀ packs p, m.loadAll r w = some (packs, p) → (m.closing p).Attributes m.desk none) ∧
    (∀ m' w', m.load r w = some (m', w') → w'.Attributes m.desk none) ∧
    ∀ later m' w', HostCall.SparesUnit m.desk later →
      HostCall.performAll r (.load :: later) m w = some (m', w') →
      ∃ ds, HostCall.deedsAll r (.load :: later) m w = some ds ∧ Deed.replay ds w = w' ∧
        ∀ before level message after, ds = before ++ .act (.told m.desk level message) :: after →
          ((Deed.replay (before ++ [.act (.told m.desk level message)]) w).desk m.desk).lines =
            ⟨level, headed (Deed.atWork none before) message⟩ ::
              ((Deed.replay before w).desk m.desk).lines := by
  refine ⟨?_, ?_, ?_, ?_⟩
  · rintro u c p ⟨before, k, after, loaded, p₀, us, us', us₁, c₀, -, hloaded, -, -, hrun⟩
    have hseated : m.desk < p.world.desks.size := by
      rwa [size_runUnits hrun, size_loadPacks hloaded, size_opening]
    refine World.attributes_of_unit ?_ (World.unit_setUnit hseated _)
    exact (World.size_changeDesk p.world m.desk _).symm ▸ hseated
  · intro packs p hp
    have hseated : m.desk < p.world.desks.size := by rwa [size_loadPacks hp, size_opening]
    refine World.attributes_of_unit ?_ (unit_closing hseated)
    rwa [closing, World.size_say, World.setUnit, World.size_changeDesk]
  · intro m' w' h
    obtain ⟨ds, -, hworld⟩ := exists_chronicle h
    refine World.attributes_of_unit ?_ (unit_load seated h)
    rwa [← hworld, Deed.size_replay]
  · intro later m' w' spares h
    obtain ⟨⟨m₁, w₁⟩, hload, hlater⟩ := Option.bind_eq_some_iff.mp h
    change m.load r w = some (m₁, w₁) at hload
    change HostCall.performAll r later m₁ w₁ = some (m', w') at hlater
    obtain ⟨ds, hds, hworld⟩ := exists_chronicle hload
    obtain ⟨es, hes, hlast, -⟩ := HostCall.deedsAll_of_performAll hlater
    have hseated : m.desk < w₁.desks.size := by rwa [← hworld, Deed.size_replay]
    have hrest : Deed.Fair m.desk w₁ es :=
      HostCall.fair_deedsAll (desk_load hload) spares hseated (unit_load seated hload) hlater hes
    have hfair : Deed.Fair m.desk w (ds ++ es) :=
      (fair_chronicle seated hds).append (hworld.symm ▸ hrest)
    refine ⟨ds ++ es, ?_, ?_, fun before level message after hsplit => ?_⟩
    · simp only [HostCall.deedsAll, HostCall.perform, HostCall.deeds, hload, hds, hes]
      rfl
    · rw [Deed.replay_append, hworld, hlast]
    · have hfaithful := hfair.faithful
      rw [hsplit] at hfaithful
      exact hfaithful.lines seated

namespace Sample

/-- Scripts of a single word: `listen` registers `log` for two events, `crash` crashes, and any
other word is posted. -/
def talking : Engine Unit Empty (Table Global) :=
  { engine with
    run := fun c _ text =>
      match c.get? "log", c.get? "onEvent", c.get? "postEvent" with
      | some ⟨log, _⟩, some ⟨.function onEvent, _⟩, some ⟨.function postEvent, _⟩ =>
        if text = "crash" then .done (.crashed none, c)
        else if text = "listen" then
          .call onEvent [.text "word", log] fun _ => .call onEvent [.text loadedEvent, log] fun _ =>
            .done (.done (), c)
        else .call postEvent [.text "word", .text text] fun _ => .done (.done (), c)
      | _, _, _ => .done (.done (), c) }

/-- A manager with a pack that is given no context, and one the first unit of which registers
handlers, the second one crashes, and the third one posts a word. -/
def talker : Manager Unit Empty (Table Global) :=
  let pack := (ScriptPack.empty "talk" "" ⟨"talk"⟩).push (unit "c" "now")
  { create { plan with engine := talking } 0 with
    packs := [broken, (pack.push (unit "a" "listen")).push (unit "b" "crash")] }

end Sample

/-- The handler that the first unit registers writes for the third one what that posts, although a
unit in between has crashed, and when the load is over it writes for nobody. -/
theorem load_attributes_sample :
    ∃ m' w' ds, Sample.talker.load .plain Sample.world = some (m', w') ∧
      HostCall.deedsAll .plain [.load] Sample.talker Sample.world = some ds ∧
      Deed.replay ds Sample.world = w' ∧
      (w'.desk 0).lines.head? = some ⟨.info, "()"⟩ ∧ ⟨.info, "c: now"⟩ ∈ (w'.desk 0).lines ∧
      w'.Attributes 0 none := by
  have hsome : (Sample.talker.load .plain Sample.world).isSome := rfl
  obtain ⟨⟨m', w'⟩, h⟩ := Option.isSome_iff_exists.mp hsome
  have seated : Sample.talker.desk < Sample.world.desks.size := by decide
  have spares : HostCall.SparesUnit Sample.talker.desk ([] : List (HostCall Unit Empty)) := by
    rintro f same ⟨⟩
  obtain ⟨-, -, hafter, hdeeds⟩ := load_attributes Sample.talker .plain seated
  have hall : HostCall.performAll .plain [.load] Sample.talker Sample.world = some (m', w') := by
    simp [HostCall.performAll, HostCall.perform, h]
  obtain ⟨ds, hds, hreplay, -⟩ := hdeeds [] m' w' spares hall
  have hlines : (Sample.talker.load .plain Sample.world).map (fun s =>
      ((s.2.desk 0).lines.head?, decide (⟨.info, "c: now"⟩ ∈ (s.2.desk 0).lines))) =
        some (some ⟨.info, "()"⟩, true) := by decide +kernel
  rw [h] at hlines
  injection hlines with hlines
  injection hlines with hlast hmem
  exact ⟨m', w', ds, h, hds, hreplay, hlast, of_decide_eq_true hmem, hafter m' w' h⟩

end Manager

end PackHost
