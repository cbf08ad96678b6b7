import PackHost.Proofs.Manager.Deed

/-!
# The chronicle of a load

All deeds of a load, in order: `Manager.chronicle` writes them down. The main statement is
`exists_chronicle`: whenever a load comes to its end, replaying its deeds leads to the world that it
leaves.
-/

namespace PackHost

open Pack

variable {ω γ κ : Type}

/-! ## The end of a load -/

/-- Calls listeners of the host, one after another, and writes down what they do. -/
def Journal.tellAll (call : Reporter ω γ) : List Function → Journal ω γ Unit
  | [] => pure ()
  | f :: fs =>
    (call f []).bind fun
      | .crashed _ =>
        (act (.noted (.plain .error "events"
          ("Handler for '" ++ scriptsLoaded ++ "' panicked")))).bind fun () => tellAll call fs
      | _ => tellAll call fs

theorem Journal.forget_tellAll {call : Reporter ω γ} {caller : Caller ω γ}
    (h : ∀ f args w, (call f args).forget w = caller f args w) (fs : List Function)
    (w : World ω γ) :
    (tellAll call fs).forget w = (PackHost.tellAll caller fs w).map fun w' => ((), w') := by
  induction fs generalizing w with
  | nil => rfl
  | cons f fs ih =>
    simp only [tellAll, forget_bind, PackHost.tellAll, h]
    cases caller f [] w with
    | none => rfl
    | some r =>
      obtain ⟨ended, w'⟩ := r
      cases ended with
      | crashed message =>
        simp only [Option.bind_some, forget_bind, forget_act]
        exact ih _
      | done v => exact ih _
      | failed f => exact ih _

namespace Manager

/-! ## Loads, one unit and one pack at a time -/

section

variable {plan : Plan ω γ κ} {d : Nat} {r : Runner ω γ}

def beginUnit (d : Nat) (p : Pass ω γ) (u : ScriptUnit) : World ω γ :=
  p.world.setUnit d (some u.location)

/-- The pass after the run of a unit, which has left the given world, was reported. -/
def endUnit (plan : Plan ω γ κ) (d : Nat) (p : Pass ω γ) (w : World ω γ) (u : ScriptUnit) :
    Pass ω γ :=
  { p.count with world := w }.report plan.kind d u

theorem runUnits_cons_eq_some {u : ScriptUnit} {us us' : List ScriptUnit} {c c' : κ}
    {p p' : Pass ω γ} (h : runUnits plan d r (u :: us) c p = some (us', c', p')) :
    ∃ u₁ c₁ w₁ us₁,
      u.reset.run (plan.engine.execute r.run) (c, beginUnit d p u) = some (u₁, c₁, w₁) ∧
      runUnits plan d r us c₁ (endUnit plan d p w₁ u₁) = some (us₁, c', p') ∧ us' = u₁ :: us₁ := by
  simp only [runUnits] at h
  split at h
  · cases h
  · next u₁ c₁ w₁ hu =>
    split at h
    · cases h
    · next us₁ c₂ p₂ hus =>
      cases h
      exact ⟨u₁, c₁, w₁, us₁, hu, hus, rfl⟩

theorem loadPacks_cons_eq_some {globals : Table Global} {k : ScriptPack κ}
    {ks ks' : List (ScriptPack κ)} {p p' : Pass ω γ}
    (h : loadPacks plan d r globals (k :: ks) p = some (ks', p')) :
    ∃ k₁ p₁ ks₁, loadPack plan d r globals k p = some (k₁, p₁) ∧
      loadPacks plan d r globals ks p₁ = some (ks₁, p') ∧ ks' = k₁ :: ks₁ := by
  simp only [loadPacks] at h
  split at h
  · cases h
  · next k₁ p₁ hk =>
    split at h
    · cases h
    · next ks₁ p₂ hks =>
      cases h
      exact ⟨k₁, p₁, ks₁, hk, hks, rfl⟩

/-- A pack has no context, and all its units fail, or it is given a fresh context in which its units
run. -/
theorem loadPack_eq_some {globals : Table Global} {k k' : ScriptPack κ} {p p' : Pass ω γ}
    (h : loadPack plan d r globals k p = some (k', p')) :
    (∃ f, plan.engine.create ⟨k.name, globals, plan.restriction⟩ = .error f ∧
      let told := p.say d .error
        ("Failed to create context for pack " ++ k.name ++ ": " ++ f.outline.line)
      k' = { k with units := (failUnits plan d f k.units told).1, context := none } ∧
        p' = (failUnits plan d f k.units told).2) ∨
    (∃ c c' us, plan.engine.create ⟨k.name, globals, plan.restriction⟩ = .ok c ∧
      runUnits plan d r k.units c p = some (us, c', p') ∧
        k' = { k with units := us, context := some c' }) := by
  unfold loadPack at h
  split at h
  · next f hf =>
    cases h
    exact .inl ⟨f, hf, rfl, rfl⟩
  · next c hc =>
    split at h
    · cases h
    · next us c' p₁ hus =>
      cases h
      exact .inr ⟨c, c', us, hc, hus, rfl⟩

end

/-! ## The deeds of a load -/

section

variable (plan : Plan ω γ κ) (d : Nat) (r : Runner ω γ)

def reportDeeds (u : ScriptUnit) : List (Deed ω γ κ) :=
  match u.fate with
  | .pending => []
  | .loaded => [.said d .info ("Loaded script " ++ u.location ++ " in " ++ elapsed ++ " s")]
  | .failed f =>
    .said d .error
        ("Error loading " ++ plan.kind.name ++ " script " ++ (u.location ++ ": " ++ f.message)) ::
      if f.isScriptLevel then [] else [.said d .error f.outline.block]

/-- Runs a text as the engine does, and writes down that the engine was given it. -/
def noting (pack location text : String) (s : κ × World ω γ × List (Deed ω γ κ)) :
    Option (Outcome Unit × (κ × World ω γ × List (Deed ω γ κ))) :=
  (Journal.run r.report (plan.engine.run s.1 location text) s.2.1).map fun t =>
    (t.1.1, t.1.2, replay t.2 s.2.1,
      s.2.2 ++ (.handed pack location text s.1 :: t.2.map .act ++ [.finished t.1.1 t.1.2]))

def unitsDeeds (pack : String) : List ScriptUnit → κ → Pass ω γ → Option (List (Deed ω γ κ))
  | [], _, _ => some []
  | u :: us, c, p =>
    match u.reset.run (noting plan r pack) (c, beginUnit d p u, []) with
    | none => none
    | some (u', c', w, ds) =>
      (unitsDeeds pack us c' (endUnit plan d p w u')).map fun rest =>
        .switched d (some u.location) :: ds ++ reportDeeds plan d u' ++ rest

def failDeeds (f : Failure) (us : List ScriptUnit) : List (Deed ω γ κ) :=
  us.flatMap fun u => reportDeeds plan d (u.fail (.script f))

def packDeeds (globals : Table Global) (k : ScriptPack κ) (p : Pass ω γ) :
    Option (List (Deed ω γ κ)) :=
  match plan.engine.create ⟨k.name, globals, plan.restriction⟩ with
  | .error f =>
    some (.said d .error
      ("Failed to create context for pack " ++ k.name ++ ": " ++ f.outline.line) ::
        failDeeds plan d f k.units)
  | .ok c => unitsDeeds plan d r k.name k.units c p

def packsDeeds (globals : Table Global) :
    List (ScriptPack κ) → Pass ω γ → Option (List (Deed ω γ κ))
  | [], _ => some []
  | k :: ks, p =>
    match loadPack plan d r globals k p, packDeeds plan d r globals k p with
    | some (_, p'), some ds => (packsDeeds globals ks p').map fun rest => ds ++ rest
    | _, _ => none

end

/-! ## Replaying them -/

section

variable {plan : Plan ω γ κ} {d : Nat} {r : Runner ω γ}

theorem world_report (p : Pass ω γ) (u : ScriptUnit) :
    (p.report plan.kind d u).world =
      Deed.replay (reportDeeds plan d u : List (Deed ω γ κ)) p.world := by
  unfold Pass.report reportDeeds
  cases u.fate with
  | pending => rfl
  | loaded => rfl
  | failed f =>
    cases h : f.isScriptLevel <;> simp [Pass.reportFailure, Pass.say, Deed.apply, h]

/-- A unit with a text is handed to the engine with this text, and the outcome is its fate; any
other unit fails, and nothing is handed to anyone. -/
theorem run_noting_eq_some {pack : String} {u u' : ScriptUnit} {c c' : κ} {w w' : World ω γ}
    {ds : List (Deed ω γ κ)} (h : u.run (noting plan r pack) (c, w, []) = some (u', c', w', ds)) :
    (∃ text ended as, u.prepared = some (.ok text) ∧
      Journal.run r.report (plan.engine.run c u.location text) w = some ((ended, c'), as) ∧
      u' = { u with fate := ScriptUnit.fateOf ended } ∧ w' = PackHost.replay as w ∧
      ds = .handed pack u.location text c :: as.map .act ++ [.finished ended c']) ∨
    (∃ f, (∀ text, u.prepared ≠ some (.ok text)) ∧ u' = u.fail f ∧ c' = c ∧ w' = w ∧ ds = []) := by
  unfold ScriptUnit.run at h
  match hp : u.prepared with
  | none =>
    simp only [hp] at h
    cases h
    exact .inr ⟨_, by simp, rfl, rfl, rfl, rfl⟩
  | some (.error f) =>
    simp only [hp] at h
    cases h
    exact .inr ⟨_, by simp, rfl, rfl, rfl, rfl⟩
  | some (.ok text) =>
    simp only [hp, noting, Option.map_map] at h
    obtain ⟨⟨⟨ended, c₁⟩, as⟩, hrun, h⟩ := Option.map_eq_some_iff.mp h
    cases h
    exact .inl ⟨text, ended, as, rfl, hrun, rfl, rfl, rfl⟩

theorem run_noting (pack : String) (u : ScriptUnit) (c : κ) (w : World ω γ) :
    (u.run (noting plan r pack) (c, w, [])).map (fun s => (s.1, s.2.1, s.2.2.1)) =
      u.run (plan.engine.execute r.run) (c, w) := by
  unfold ScriptUnit.run
  match u.prepared with
  | none => rfl
  | some (.error f) => rfl
  | some (.ok text) =>
    simp only [noting, Engine.execute, ← r.forget_run, Journal.forget, Option.map_map]
    rfl

theorem replay_noting {pack : String} {u u' : ScriptUnit} {c c' : κ} {w w' : World ω γ}
    {ds : List (Deed ω γ κ)} (h : u.run (noting plan r pack) (c, w, []) = some (u', c', w', ds)) :
    Deed.replay ds w = w' := by
  rcases run_noting_eq_some h with ⟨text, ended, as, -, -, -, rfl, rfl⟩ | ⟨f, -, -, -, rfl, rfl⟩
  · simp [Deed.apply]
  · rfl

/-- The run of the first unit, with what is written down about it. -/
theorem runUnits_cons_noting (pack : String) {u : ScriptUnit} {us us' : List ScriptUnit} {c c' : κ}
    {p p' : Pass ω γ} (h : runUnits plan d r (u :: us) c p = some (us', c', p')) :
    ∃ u₁ c₁ w₁ ds us₁,
      u.reset.run (noting plan r pack) (c, beginUnit d p u, []) = some (u₁, c₁, w₁, ds) ∧
        runUnits plan d r us c₁ (endUnit plan d p w₁ u₁) = some (us₁, c', p') := by
  obtain ⟨u₁, c₁, w₁, us₁, hu, hus, -⟩ := runUnits_cons_eq_some h
  rw [← run_noting pack] at hu
  obtain ⟨⟨u₂, c₂, w₂, ds⟩, hnoting, hu⟩ := Option.map_eq_some_iff.mp hu
  cases hu
  exact ⟨u₂, c₂, w₂, ds, us₁, hnoting, hus⟩

theorem unitsDeeds_of_runUnits (pack : String) {us us' : List ScriptUnit} {c c' : κ}
    {p p' : Pass ω γ} (h : runUnits plan d r us c p = some (us', c', p')) :
    ∃ ds, unitsDeeds plan d r pack us c p = some ds ∧ Deed.replay ds p.world = p'.world := by
  induction us generalizing c p us' with
  | nil =>
    simp only [runUnits, Option.some.injEq, Prod.mk.injEq] at h
    exact ⟨[], rfl, congrArg Pass.world h.2.2⟩
  | cons u us ih =>
    obtain ⟨u₁, c₁, w₁, ds, us₁, hnoting, hus⟩ := runUnits_cons_noting pack h
    have hw := replay_noting hnoting
    obtain ⟨es, hes, hp⟩ := ih hus
    simp only [unitsDeeds, hnoting, hes]
    refine ⟨_, rfl, ?_⟩
    rw [← hp, endUnit, world_report]
    simp only [List.cons_append, Deed.replay_cons, Deed.replay_append, Deed.apply]
    rw [← beginUnit, hw]

theorem replay_failDeeds (f : Failure) (us : List ScriptUnit) (p : Pass ω γ) :
    Deed.replay (failDeeds plan d f us : List (Deed ω γ κ)) p.world =
      (failUnits plan d f us p).2.world := by
  induction us generalizing p with
  | nil => rfl
  | cons u us ih =>
    simp only [failDeeds, List.flatMap_cons, Deed.replay_append, failUnits]
    rw [← ih, world_report]
    rfl

theorem packDeeds_of_loadPack {globals : Table Global} {k k' : ScriptPack κ} {p p' : Pass ω γ}
    (h : loadPack plan d r globals k p = some (k', p')) :
    ∃ ds, packDeeds plan d r globals k p = some ds ∧ Deed.replay ds p.world = p'.world := by
  rcases loadPack_eq_some h with ⟨f, hf, -, rfl⟩ | ⟨c, c', us, hc, hus, -⟩
  · simp only [packDeeds, hf]
    refine ⟨_, rfl, ?_⟩
    rw [← replay_failDeeds]
    rfl
  · simp only [packDeeds, hc]
    exact unitsDeeds_of_runUnits k.name hus

theorem packsDeeds_of_loadPacks {globals : Table Global} {ks ks' : List (ScriptPack κ)}
    {p p' : Pass ω γ} (h : loadPacks plan d r globals ks p = some (ks', p')) :
    ∃ ds, packsDeeds plan d r globals ks p = some ds ∧ Deed.replay ds p.world = p'.world := by
  induction ks generalizing p ks' with
  | nil =>
    simp only [loadPacks, Option.some.injEq, Prod.mk.injEq] at h
    exact ⟨[], rfl, congrArg Pass.world h.2⟩
  | cons k ks ih =>
    obtain ⟨k₁, p₁, ks₁, hk, hks, -⟩ := loadPacks_cons_eq_some h
    obtain ⟨ds, hds, hw⟩ := packDeeds_of_loadPack hk
    obtain ⟨es, hes, hp⟩ := ih hks
    simp only [packsDeeds, hk, hds, hes]
    exact ⟨_, rfl, by rw [Deed.replay_append, hw, hp]⟩

end

/-! ## The whole load -/

section

variable (m : Manager ω γ κ) (r : Runner ω γ)

/-- The namespace of a load, and the world after it was written. -/
def gather (w : World ω γ) : Registry × World ω γ :=
  (w.dropOwned m.desk).collect m.desk m.plan.kind

def opening (w : World ω γ) : Pass ω γ := ⟨(m.gather w).2, ⟨0, 0⟩, []⟩

def closingLine (p : Pass ω γ) : Line := summaryLine m.plan.kind p.summary

def closing (p : Pass ω γ) : World ω γ :=
  (p.world.setUnit m.desk none).say m.desk (m.closingLine p).level (m.closingLine p).text

def settled (w : World ω γ) (packs : List (ScriptPack κ)) (p : Pass ω γ) : Manager ω γ κ :=
  { m with
    state := .loaded
    packs := packs
    registry := (m.gather w).1
    errors := p.errors
    summary := p.summary }

def loadAll (w : World ω γ) : Option (List (ScriptPack κ) × Pass ω γ) :=
  loadPacks m.plan m.desk r (m.gather w).1.merged (preparePacks m.plan m.packs) (m.opening w)

/-- The acts of the handlers and listeners that are told of the end of a load. -/
def farewell : Journal ω γ Unit :=
  (Journal.post r.report m.desk loadedEvent .unit).bind fun _ =>
    (Journal.ask fun w => w.lifecycle.handlers scriptsLoaded).bind fun fs =>
      Journal.tellAll r.report fs

def chronicle (w : World ω γ) : Option (List (Deed ω γ κ)) :=
  match m.loadAll r w,
      packsDeeds m.plan m.desk r (m.gather w).1.merged (preparePacks m.plan m.packs)
        (m.opening w) with
  | some (_, p), some ds =>
    (m.farewell r (m.closing p)).map fun s =>
      [.forgot m.desk, .gathered m.desk m.plan.kind] ++ ds ++
        [.switched m.desk none, .said m.desk (m.closingLine p).level (m.closingLine p).text] ++
          s.2.map .act
  | _, _ => none

end

section

variable {m m' : Manager ω γ κ} {r : Runner ω γ} {w w' : World ω γ}

theorem load_eq_some (h : m.load r w = some (m', w')) :
    ∃ packs p, m.loadAll r w = some (packs, p) ∧ m' = m.settled w packs p ∧
      (m.farewell r).forget (m.closing p) = some ((), w') := by
  simp only [load] at h
  split at h
  · cases h
  · next packs p hp =>
    split at h
    · cases h
    · next n posted hpost =>
      obtain ⟨told, htold, h⟩ := Option.map_eq_some_iff.mp h
      cases h
      refine ⟨packs, p, hp, rfl, ?_⟩
      have htell : (Journal.tellAll r.report (posted.lifecycle.handlers scriptsLoaded)).forget
          posted = some ((), w') := by
        rw [Journal.forget_tellAll r.forget_report]
        exact congrArg (Option.map fun w' => ((), w')) htold
      simp only [farewell, Journal.forget_bind, r.forget_post]
      rw [show r.post m.desk loadedEvent .unit (m.closing p) = some (n, posted) from hpost]
      exact htell

theorem desk_load (h : m.load r w = some (m', w')) : m'.desk = m.desk := by
  obtain ⟨packs, p, -, rfl, -⟩ := load_eq_some h
  rfl

theorem plan_load (h : m.load r w = some (m', w')) : m'.plan = m.plan := by
  obtain ⟨packs, p, -, rfl, -⟩ := load_eq_some h
  rfl

/-- **The chronicle of a load leads to the world that the load leaves.** -/
theorem exists_chronicle (h : m.load r w = some (m', w')) :
    ∃ ds, m.chronicle r w = some ds ∧ Deed.replay ds w = w' := by
  obtain ⟨packs, p, hp, -, hw⟩ := load_eq_some h
  obtain ⟨ds, hds, hworld⟩ := packsDeeds_of_loadPacks hp
  obtain ⟨⟨_, as⟩, has, hreplay⟩ := Option.map_eq_some_iff.mp hw
  simp only [chronicle, hp, hds, has]
  refine ⟨_, rfl, ?_⟩
  have hopen : (m.opening w).world = (m.gather w).2 := rfl
  simp only [Deed.replay_append, Deed.replay_cons, Deed.replay_nil, Deed.replay_map_act, Deed.apply]
  rw [show (w.dropOwned m.desk).collect m.desk m.plan.kind = m.gather w from rfl, ← hopen, hworld]
  exact congrArg Prod.snd hreplay

end

end Manager

end PackHost
