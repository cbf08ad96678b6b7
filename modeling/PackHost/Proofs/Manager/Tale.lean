import PackHost.Proofs.Manager.Account
import PackHost.Proofs.Twin.Journal

/-!
# Loads with their deeds

A load and its parts together with everything that they do: `unitsTale`, `packsTale` and `tale`.
Each is one step followed by the rest, so that loads can be compared like journals. The main
statements are `load_eq_tale` and `chronicle_eq_tale`.
-/

namespace PackHost

open Event Pack

variable {ω γ κ : Type}

/-! ## Acts as deeds -/

namespace Deed

theorem stepReplay_map_act (as : List (Act ω γ)) (w : World ω γ) :
    Step.replay (as.map act : List (Deed ω γ κ)) w = Step.replay as w :=
  replay_map_act as w

theorem quiet_map_act {as : List (Act ω γ)} :
    Step.Quiet (as.map act : List (Deed ω γ κ)) ↔ Step.Quiet as := by
  simp only [Step.Quiet, List.forall_mem_map]
  rfl

theorem tallies_map_act (d : Nat) (w : World ω γ) (as : List (Act ω γ)) :
    Step.tallies d w (as.map act : List (Deed ω γ κ)) = Step.tallies d w as := by
  induction as generalizing w with
  | nil => rfl
  | cons a as ih =>
    rw [List.map_cons, Step.tallies, Step.tallies]
    exact congrArg (a.tally d w ++ ·) (ih _)

theorem tame_map_act {d : Nat} {as : List (Act ω γ)} :
    Step.Tame d (as.map act : List (Deed ω γ κ)) ↔ Step.Tame d as := by
  simp only [Step.Tame, List.forall_mem_map]
  rfl

/-- Lines of the manager have nothing to do with handlers. -/
theorem tame_of_said {d e : Nat} {ds : List (Deed ω γ κ)}
    (h : ∀ b ∈ ds, ∃ level text, b = .said d level text) : Step.Tame e ds := by
  intro b hb
  obtain ⟨level, text, rfl⟩ := h b hb
  rfl

theorem tallies_of_said (e : Nat) {d : Nat} {ds : List (Deed ω γ κ)}
    (h : ∀ b ∈ ds, ∃ level text, b = .said d level text) (w : World ω γ) :
    Step.tallies e w ds = [] := by
  induction ds generalizing w with
  | nil => rfl
  | cons b ds ih =>
    obtain ⟨⟨level, text, rfl⟩, hrest⟩ := List.forall_mem_cons.mp h
    rw [Step.tallies, ih hrest]
    rfl

end Deed

/-! ## Reports -/

namespace Manager

variable {plan : Plan ω γ κ} {d e : Nat} {r : Runner ω γ}

theorem sameCore_replay {ds : List (Deed ω γ κ)}
    (h : ∀ b ∈ ds, ∃ level text, b = .said d level text) (w : World ω γ) :
    World.SameCore e w (Deed.replay ds w) := by
  induction ds generalizing w with
  | nil => exact .refl e w
  | cons b ds ih =>
    obtain ⟨⟨level, text, rfl⟩, hrest⟩ := List.forall_mem_cons.mp h
    exact (World.SameCore.say w d level text).trans (ih hrest _)

theorem said_of_mem_reportDeeds {u : ScriptUnit} {b : Deed ω γ κ}
    (h : b ∈ reportDeeds plan d u) : ∃ level text, b = .said d level text := by
  unfold reportDeeds at h
  split at h
  · cases h
  · exact ⟨_, _, List.mem_singleton.mp h⟩
  · rcases List.mem_cons.mp h with rfl | h
    · exact ⟨_, _, rfl⟩
    · split at h
      · cases h
      · exact ⟨_, _, List.mem_singleton.mp h⟩

theorem world_endUnit (p : Pass ω γ) (w : World ω γ) (u : ScriptUnit) :
    (endUnit plan d p w u).world =
      Step.replay (reportDeeds plan d u : List (Deed ω γ κ)) w :=
  world_report _ u

theorem sameCore_reportDeeds (w : World ω γ) (u : ScriptUnit) :
    World.SameCore e w (Step.replay (reportDeeds plan d u : List (Deed ω γ κ)) w) :=
  sameCore_replay (fun _ hb => said_of_mem_reportDeeds hb) w

end Manager

/-! ## Runs with their deeds -/

namespace Manager

section

variable (plan : Plan ω γ κ) (d : Nat) (r : Runner ω γ)

def unitTale (pack : String) (u : ScriptUnit) (c : κ) (w : World ω γ) :
    Option ((ScriptUnit × κ) × List (Deed ω γ κ)) :=
  (u.run (noting plan r pack) (c, w, [])).map fun s => ((s.1, s.2.1), s.2.2.2)

def packTale (globals : Table Global) (k : ScriptPack κ) (p : Pass ω γ) :
    Option ((ScriptPack κ × Pass ω γ) × List (Deed ω γ κ)) :=
  (loadPack plan d r globals k p).bind fun s =>
    (packDeeds plan d r globals k p).map fun ds => (s, ds)

def packsTale (globals : Table Global) (ks : List (ScriptPack κ)) (p : Pass ω γ) :
    Option ((List (ScriptPack κ) × Pass ω γ) × List (Deed ω γ κ)) :=
  (loadPacks plan d r globals ks p).bind fun s =>
    (packsDeeds plan d r globals ks p).map fun ds => (s, ds)

def unitsTale (pack : String) (us : List ScriptUnit) (c : κ) (p : Pass ω γ) :
    Option (((List ScriptUnit × κ) × Pass ω γ) × List (Deed ω γ κ)) :=
  (runUnits plan d r us c p).bind fun s =>
    (unitsDeeds plan d r pack us c p).map fun ds => (((s.1, s.2.1), s.2.2), ds)

end

section

variable {plan : Plan ω γ κ} {d : Nat} {r : Runner ω γ}

/-- The deeds of a unit lead to the world that it leaves. -/
theorem run_noting_eq (pack : String) (u : ScriptUnit) (c : κ) (w : World ω γ) :
    u.run (noting plan r pack) (c, w, []) =
      (unitTale plan r pack u c w).map fun s => (s.1.1, s.1.2, Deed.replay s.2 w, s.2) := by
  unfold unitTale
  cases h : u.run (noting plan r pack) (c, w, []) with
  | none => rfl
  | some s =>
    obtain ⟨u₁, c₁, w₁, ds⟩ := s
    rw [Option.map_some, Option.map_some, replay_noting h]

/-- A unit with a text is handed to the engine, which runs the text. -/
theorem unitTale_of_text (pack : String) {u : ScriptUnit} {text : String}
    (h : u.prepared = some (.ok text)) (c : κ) (w : World ω γ) :
    unitTale plan r pack u c w =
      (((Journal.run r.report (plan.engine.run c u.location text) w).map
        fun s => (s.1, (s.2.map .act : List (Deed ω γ κ)))).bind fun s =>
          (some (({ u with fate := ScriptUnit.fateOf s.1.1 }, s.1.2),
            [.finished s.1.1 s.1.2])).map fun t => (t.1, s.2 ++ t.2)).map
              fun t => (t.1, [.handed pack u.location text c] ++ t.2) := by
  simp only [unitTale, ScriptUnit.run, h, noting]
  cases Journal.run r.report (plan.engine.run c u.location text) w <;> rfl

theorem unitTale_of_no_text (pack : String) {u : ScriptUnit}
    (h : ∀ text, u.prepared ≠ some (.ok text)) :
    ∃ f, ∀ (c : κ) (w : World ω γ), unitTale plan r pack u c w = some ((u.fail f, c), []) := by
  unfold unitTale ScriptUnit.run
  match hp : u.prepared with
  | none => exact ⟨_, fun _ _ => rfl⟩
  | some (.error f) => exact ⟨_, fun _ _ => rfl⟩
  | some (.ok text) => exact absurd hp (h text)

/-- Units run one after another, and each one is reported before the next one. -/
theorem unitsTale_cons (pack : String) (u : ScriptUnit) (us : List ScriptUnit) (c : κ)
    (p : Pass ω γ) :
    unitsTale plan d r pack (u :: us) c p =
      ((unitTale plan r pack u.reset c (beginUnit d p u)).bind fun s =>
        (((unitsTale plan d r pack us s.1.2
          (endUnit plan d p (Step.replay s.2 (beginUnit d p u)) s.1.1)).map
            fun t => (t.1, reportDeeds plan d s.1.1 ++ t.2)).map
            fun t => (((s.1.1 :: t.1.1.1, t.1.1.2), t.1.2), t.2)).map fun t => (t.1, s.2 ++ t.2)).map
              fun t => (t.1, [.switched d (some u.location)] ++ t.2) := by
  unfold unitsTale
  simp only [runUnits, unitsDeeds]
  rw [show p.count.world.setUnit d (some u.location) = beginUnit d p u from rfl, ← run_noting,
    run_noting_eq]
  cases unitTale plan r pack u.reset c (beginUnit d p u) with
  | none => rfl
  | some s =>
    obtain ⟨⟨u₁, c₁⟩, ds⟩ := s
    have hend : ({ p.count with world := Deed.replay ds (beginUnit d p u) } : Pass ω γ).report
        plan.kind d u₁ = endUnit plan d p (Step.replay ds (beginUnit d p u)) u₁ := rfl
    have hend' : endUnit plan d p (Deed.replay ds (beginUnit d p u)) u₁ =
        endUnit plan d p (Step.replay ds (beginUnit d p u)) u₁ := rfl
    simp only [Option.map_some, Option.bind_some, hend, hend']
    cases runUnits plan d r us c₁ (endUnit plan d p (Step.replay ds (beginUnit d p u)) u₁) with
    | none => rfl
    | some t =>
      simp only [Option.bind_some, Option.map_map]
      cases unitsDeeds plan d r pack us c₁
        (endUnit plan d p (Step.replay ds (beginUnit d p u)) u₁) with
      | none => rfl
      | some es => simp

theorem packTale_of_error {globals : Table Global} {k : ScriptPack κ} {f : Failure}
    (h : plan.engine.create ⟨k.name, globals, plan.restriction⟩ = .error f) (p : Pass ω γ) :
    ∃ p', packTale plan d r globals k p =
      some (({ k with units := k.units.map fun u => u.fail (.script f), context := none }, p'),
        .said d .error ("Failed to create context for pack " ++ k.name ++ ": " ++ f.outline.line) ::
          failDeeds plan d f k.units) := by
  have hunits : ∀ (us : List ScriptUnit) (p : Pass ω γ),
      (failUnits plan d f us p).1 = us.map fun u => u.fail (.script f) := by
    intro us
    induction us with
    | nil => exact fun _ => rfl
    | cons u us ih => exact fun p => congrArg (_ :: ·) (ih _)
  simp only [packTale, loadPack, packDeeds, h, hunits]
  exact ⟨_, rfl⟩

theorem packTale_of_ok {globals : Table Global} {k : ScriptPack κ} {c : κ}
    (h : plan.engine.create ⟨k.name, globals, plan.restriction⟩ = .ok c) (p : Pass ω γ) :
    packTale plan d r globals k p = (unitsTale plan d r k.name k.units c p).map fun t =>
      (({ k with units := t.1.1.1, context := some t.1.1.2 }, t.1.2), t.2) := by
  simp only [packTale, loadPack, packDeeds, unitsTale, h]
  cases runUnits plan d r k.units c p with
  | none => rfl
  | some s => cases unitsDeeds plan d r k.name k.units c p <;> rfl

theorem world_of_packTale {globals : Table Global} {k k' : ScriptPack κ} {p p' : Pass ω γ}
    {ds : List (Deed ω γ κ)} (h : packTale plan d r globals k p = some ((k', p'), ds)) :
    Step.replay ds p.world = p'.world := by
  obtain ⟨⟨k₁, p₁⟩, hload, h⟩ := Option.bind_eq_some_iff.mp h
  obtain ⟨es, hes, h⟩ := Option.map_eq_some_iff.mp h
  cases h
  obtain ⟨es', hes', hworld⟩ := packDeeds_of_loadPack hload
  rw [hes] at hes'
  cases hes'
  exact hworld

theorem world_of_packsTale {globals : Table Global} {ks ks' : List (ScriptPack κ)}
    {p p' : Pass ω γ} {ds : List (Deed ω γ κ)}
    (h : packsTale plan d r globals ks p = some ((ks', p'), ds)) :
    Step.replay ds p.world = p'.world := by
  obtain ⟨⟨ks₁, p₁⟩, hload, h⟩ := Option.bind_eq_some_iff.mp h
  obtain ⟨es, hes, h⟩ := Option.map_eq_some_iff.mp h
  cases h
  obtain ⟨es', hes', hworld⟩ := packsDeeds_of_loadPacks hload
  rw [hes] at hes'
  cases hes'
  exact hworld

theorem packsTale_cons (globals : Table Global) (k : ScriptPack κ) (ks : List (ScriptPack κ))
    (p : Pass ω γ) :
    packsTale plan d r globals (k :: ks) p =
      (packTale plan d r globals k p).bind fun s =>
        ((packsTale plan d r globals ks s.1.2).map
          fun t => ((s.1.1 :: t.1.1, t.1.2), t.2)).map fun t => (t.1, s.2 ++ t.2) := by
  simp only [packsTale, packTale, loadPacks, packsDeeds]
  cases hk : loadPack plan d r globals k p with
  | none => rfl
  | some s =>
    obtain ⟨k₁, p₁⟩ := s
    obtain ⟨ds, hds, -⟩ := packDeeds_of_loadPack hk
    simp only [hds, Option.bind_some, Option.map_some]
    cases loadPacks plan d r globals ks p₁ with
    | none => rfl
    | some t => cases packsDeeds plan d r globals ks p₁ <;> rfl

theorem packsTale_append {globals : Table Global} {ks₁ ks₂ ks' : List (ScriptPack κ)}
    {p p' : Pass ω γ} {ds : List (Deed ω γ κ)}
    (h : packsTale plan d r globals (ks₁ ++ ks₂) p = some ((ks', p'), ds)) :
    ∃ ks₁' p₁ ds₁ ks₂' ds₂, packsTale plan d r globals ks₁ p = some ((ks₁', p₁), ds₁) ∧
      packsTale plan d r globals ks₂ p₁ = some ((ks₂', p'), ds₂) ∧ ks' = ks₁' ++ ks₂' ∧
      ds = ds₁ ++ ds₂ := by
  induction ks₁ generalizing p ks' ds with
  | nil => exact ⟨[], p, [], ks', ds, rfl, h, rfl, rfl⟩
  | cons k ks₁ ih =>
    rw [List.cons_append, packsTale_cons] at h
    obtain ⟨⟨⟨k₁, q⟩, es⟩, hk, h⟩ := Option.bind_eq_some_iff.mp h
    rw [Option.map_map] at h
    obtain ⟨⟨⟨ks, q'⟩, fs⟩, hks, h⟩ := Option.map_eq_some_iff.mp h
    cases h
    obtain ⟨ks₁', p₁, ds₁, ks₂', ds₂, hks₁, hks₂, rfl, rfl⟩ := ih hks
    refine ⟨k₁ :: ks₁', p₁, es ++ ds₁, ks₂', ds₂, ?_, hks₂, rfl, (List.append_assoc _ _ _).symm⟩
    rw [packsTale_cons, hk, Option.bind_some, hks₁]
    rfl

end

end Manager

namespace Manager

/-! ## The whole load -/

section

variable (m : Manager ω γ κ) (r : Runner ω γ)

def closingDeeds (p : Pass ω γ) : List (Deed ω γ κ) :=
  [.switched m.desk none, .said m.desk (m.closingLine p).level (m.closingLine p).text]

/-- Everything that a load does once the namespace is written, and what becomes of the packs. -/
def tale (w : World ω γ) :
    Option ((List (ScriptPack κ) × Pass ω γ) × List (Deed ω γ κ)) :=
  (packsTale m.plan m.desk r (m.gather w).1.merged (preparePacks m.plan m.packs)
    (m.opening w)).bind fun s =>
      ((((m.farewell r (m.closing s.1.2)).map fun t =>
        (t.1, (t.2.map .act : List (Deed ω γ κ)))).map fun t => (s.1, t.2)).map fun t =>
          (t.1, m.closingDeeds s.1.2 ++ t.2)).map fun t => (t.1, s.2 ++ t.2)

variable {m r}

theorem tame_closingDeeds (e : Nat) (p : Pass ω γ) : Step.Tame e (m.closingDeeds p) := by
  intro b hb
  rcases List.mem_pair.mp hb with rfl | rfl <;> rfl

theorem sameCore_closing (d : Nat) (p : Pass ω γ) : World.SameCore d p.world (m.closing p) :=
  (World.SameCore.setUnit _ _ _).trans (.say _ _ _ _)

/-- A tale is told pack by pack, and ends with the farewell. -/
theorem tale_eq_some_iff {w : World ω γ} {packs : List (ScriptPack κ)} {p : Pass ω γ}
    {ds : List (Deed ω γ κ)} :
    m.tale r w = some ((packs, p), ds) ↔ ∃ es as,
      packsTale m.plan m.desk r (m.gather w).1.merged (preparePacks m.plan m.packs) (m.opening w) =
        some ((packs, p), es) ∧
      m.farewell r (m.closing p) = some ((), as) ∧ ds = es ++ (m.closingDeeds p ++ as.map .act) := by
  unfold tale
  constructor
  · intro h
    obtain ⟨⟨⟨packs', p'⟩, es⟩, htale, h⟩ := Option.bind_eq_some_iff.mp h
    simp only [Option.map_map] at h
    obtain ⟨⟨_, as⟩, hfarewell, h⟩ := Option.map_eq_some_iff.mp h
    cases h
    exact ⟨es, as, htale, hfarewell, rfl⟩
  · rintro ⟨es, as, htale, hfarewell, rfl⟩
    rw [htale, Option.bind_some, hfarewell]
    rfl

theorem chronicle_eq_tale (w : World ω γ) :
    m.chronicle r w = (m.tale r w).map fun s =>
      [.forgot m.desk, .gathered m.desk m.plan.kind] ++ s.2 := by
  unfold chronicle tale packsTale loadAll
  cases hload : loadPacks m.plan m.desk r (m.gather w).1.merged (preparePacks m.plan m.packs)
      (m.opening w) with
  | none => rfl
  | some s =>
    obtain ⟨ds, hds, -⟩ := packsDeeds_of_loadPacks hload
    simp only [hds, Option.bind_some, Option.map_some]
    cases m.farewell r (m.closing s.2) <;> simp [closingDeeds]

theorem load_of_loadPacks {w : World ω γ} {packs : List (ScriptPack κ)} {p : Pass ω γ}
    (h : loadPacks m.plan m.desk r (m.gather w).1.merged (preparePacks m.plan m.packs)
      (m.opening w) = some (packs, p)) :
    m.load r w = ((m.farewell r).forget (m.closing p)).map fun s =>
      (m.settled w packs p, s.2) := by
  have hopen : loadPacks m.plan m.desk r
      ((w.dropOwned m.desk).collect m.desk m.plan.kind).1.merged (preparePacks m.plan m.packs)
      ⟨((w.dropOwned m.desk).collect m.desk m.plan.kind).2, ⟨0, 0⟩, []⟩ = some (packs, p) := h
  simp only [load, hopen, farewell, Journal.forget_bind, r.forget_post, Journal.forget_ask,
    Option.bind_some, Journal.forget_tellAll r.forget_report]
  rw [show (p.world.setUnit m.desk none).say m.desk (summaryLine m.plan.kind p.summary).level
    (summaryLine m.plan.kind p.summary).text = m.closing p from rfl]
  cases r.post m.desk loadedEvent .unit (m.closing p) with
  | none => rfl
  | some s =>
    simp only [Option.bind_some, Option.map_map]
    rfl

/-- What a tale says of errors and counts is read off the units. -/
theorem account_of_tale {w : World ω γ} {packs : List (ScriptPack κ)} {p : Pass ω γ}
    {ds : List (Deed ω γ κ)} (h : m.tale r w = some ((packs, p), ds)) :
    let units := packs.flatMap ScriptPack.units
    p.errors = units.filterMap ScriptUnit.failureLine? ∧
      p.summary = ⟨units.countP fun u => u.fate = .loaded, units.length⟩ := by
  intro units
  obtain ⟨_, _, htale, -⟩ := tale_eq_some_iff.mp h
  obtain ⟨_, hload, htale⟩ := Option.bind_eq_some_iff.mp htale
  obtain ⟨_, -, htale⟩ := Option.map_eq_some_iff.mp htale
  cases htale
  have haccount := (accounted_of_loadPacks hload).1
  refine ⟨haccount.errors.trans (List.nil_append _), ?_⟩
  have htotal := haccount.total.trans (Nat.zero_add _)
  have hloaded := haccount.loaded.trans (Nat.zero_add _)
  rw [← htotal, ← hloaded]

/-- **A load is its tale.** -/
theorem load_eq_tale (w : World ω γ) :
    m.load r w = (m.tale r w).map fun s =>
      (m.settled w s.1.1 s.1.2, Step.replay s.2 (m.gather w).2) := by
  unfold tale packsTale
  cases hload : loadPacks m.plan m.desk r (m.gather w).1.merged (preparePacks m.plan m.packs)
      (m.opening w) with
  | none =>
    have hopen : loadPacks m.plan m.desk r
        ((w.dropOwned m.desk).collect m.desk m.plan.kind).1.merged (preparePacks m.plan m.packs)
        ⟨((w.dropOwned m.desk).collect m.desk m.plan.kind).2, ⟨0, 0⟩, []⟩ = none := hload
    simp only [load, hopen]
    rfl
  | some s =>
    obtain ⟨packs, p⟩ := s
    obtain ⟨ds, hds, hworld⟩ := packsDeeds_of_loadPacks hload
    rw [load_of_loadPacks hload, hds, Journal.forget]
    simp only [Option.bind_some, Option.map_some]
    cases m.farewell r (m.closing p) with
    | none => rfl
    | some t =>
      obtain ⟨_, as⟩ := t
      have hreplay : Step.replay ds (m.gather w).2 = p.world := hworld
      simp only [Option.map_some, Step.replay_append, hreplay, Deed.stepReplay_map_act]
      rfl

end

end Manager

end PackHost
