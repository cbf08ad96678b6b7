import PackHost.Proofs.Manager.Account

/-!
# What a load hands to the engine

`Turns` describes how the units of a pack run in its context, one after another, and `PackTurns` how
the packs follow one another. What is handed over depends only on the texts and on the contexts that
the engine grants: however a unit ends, it changes nothing for the units after it. The main
statement is `load_trace`.
-/

namespace PackHost

open Pack

variable {ω γ κ : Type}

/-- The location and the text of a unit, if it has a text. -/
def Pack.ScriptUnit.handout? (u : ScriptUnit) : Option (String × String) :=
  match u.prepared with
  | some (.ok text) => some (u.location, text)
  | _ => none

/-- What the units of a pack have to run: the pack, the location and the text. -/
def Pack.ScriptPack.handouts (k : ScriptPack κ) : List (String × String × String) :=
  k.units.filterMap fun u => u.handout?.map fun t => (k.name, t)

def Plan.grants (plan : Plan ω γ κ) (globals : Table Global) (k : ScriptPack κ) : Bool :=
  (plan.engine.create ⟨k.name, globals, plan.restriction⟩).isOk

namespace Deed

/-- Whether the deed is a line of the manager, or says which unit is being run. -/
def isOwn : Deed ω γ κ → Bool
  | .said .. => true
  | .switched .. => true
  | _ => false

/-- What the deed hands to the engine: the pack, the location and the text. -/
def handed? : Deed ω γ κ → Option (String × String × String)
  | .handed pack location text _ => some (pack, location, text)
  | _ => none

/-- What the deeds hand to the engine, in order. -/
def handings (ds : List (Deed ω γ κ)) : List (String × String × String) := ds.filterMap handed?

@[simp] theorem handings_append (ds es : List (Deed ω γ κ)) :
    handings (ds ++ es) = handings ds ++ handings es :=
  List.filterMap_append

@[simp] theorem handings_map_act (as : List (Act ω γ)) :
    handings (as.map .act : List (Deed ω γ κ)) = [] := by
  simp [handings, handed?]

theorem handings_of_isOwn {ds : List (Deed ω γ κ)} (h : ∀ a ∈ ds, a.isOwn) : handings ds = [] := by
  refine List.filterMap_eq_nil_iff.mpr fun a ha => ?_
  have hown := h a ha
  cases a <;> first | rfl | cases hown

end Deed

namespace Manager

/-! ## The turns of units and packs -/

section

variable (plan : Plan ω γ κ) (r : Runner ω γ)

/-- The given texts are handed to the engine, one after another and each once, the first one in the
given context and every later one in the context that the run before has left, however that run
ended; the last context is what the runs have made of the first. Nothing else is handed over. -/
inductive Turns (pack : String) :
    List (String × String) → κ → World ω γ → List (Deed ω γ κ) → κ → Prop
  | nil (c : κ) (w : World ω γ) : Turns pack [] c w [] c
  | own {ts : List (String × String)} {c c' : κ} {w : World ω γ} {a : Deed ω γ κ}
      {ds : List (Deed ω γ κ)} :
      a.isOwn → Turns pack ts c (a.apply w) ds c' → Turns pack ts c w (a :: ds) c'
  | run {location text : String} {ts : List (String × String)} {c c₁ c' : κ} {w : World ω γ}
      {ended : Outcome Unit} {as : List (Act ω γ)} {ds : List (Deed ω γ κ)} :
      Journal.run r.report (plan.engine.run c location text) w = some ((ended, c₁), as) →
      Turns pack ts c₁ (replay as w) ds c' →
      Turns pack ((location, text) :: ts) c w
        (.handed pack location text c :: as.map .act ++ .finished ended c₁ :: ds) c'

/-- The packs take their turns, one after another: a pack that the engine grants no context hands
nothing over and has no context afterwards; any other pack hands over the texts of its units, all of
them in the context that was made for it just now, and keeps what this context has become. -/
inductive PackTurns (globals : Table Global) :
    List (ScriptPack κ) → World ω γ → List (Deed ω γ κ) → List (Option κ) → Prop
  | nil (w : World ω γ) : PackTurns globals [] w [] []
  | refused {k : ScriptPack κ} {ks : List (ScriptPack κ)} {w : World ω γ}
      {ds es : List (Deed ω γ κ)} {cs : List (Option κ)} {f : Failure} :
      plan.engine.create ⟨k.name, globals, plan.restriction⟩ = .error f →
      (∀ a ∈ ds, a.isOwn) →
      PackTurns globals ks (Deed.replay ds w) es cs →
      PackTurns globals (k :: ks) w (ds ++ es) (none :: cs)
  | granted {k : ScriptPack κ} {ks : List (ScriptPack κ)} {w : World ω γ}
      {ds es : List (Deed ω γ κ)} {cs : List (Option κ)} {c c' : κ} :
      plan.engine.create ⟨k.name, globals, plan.restriction⟩ = .ok c →
      Turns plan r k.name (k.units.filterMap ScriptUnit.handout?) c w ds c' →
      PackTurns globals ks (Deed.replay ds w) es cs →
      PackTurns globals (k :: ks) w (ds ++ es) (some c' :: cs)

end

section

variable {plan : Plan ω γ κ} {d : Nat} {r : Runner ω γ}

theorem Turns.append_own {pack : String} {ts : List (String × String)} {c c' : κ} {w : World ω γ}
    {os ds : List (Deed ω γ κ)} (hown : ∀ a ∈ os, a.isOwn)
    (h : Turns plan r pack ts c (Deed.replay os w) ds c') :
    Turns plan r pack ts c w (os ++ ds) c' := by
  induction os generalizing w with
  | nil => exact h
  | cons a os ih =>
    obtain ⟨ha, hos⟩ := List.forall_mem_cons.mp hown
    exact .own ha (ih hos h)

theorem Turns.handings {pack : String} {ts : List (String × String)} {c c' : κ} {w : World ω γ}
    {ds : List (Deed ω γ κ)} (h : Turns plan r pack ts c w ds c') :
    Deed.handings ds = ts.map fun t => (pack, t) := by
  induction h with
  | nil c w => rfl
  | @own ts c c' w a ds ha _ ih =>
    rw [← List.singleton_append, Deed.handings_append, ih,
      Deed.handings_of_isOwn (List.forall_mem_singleton.mpr ha), List.nil_append]
  | @run location text ts c c₁ c' w ended as ds _ _ ih =>
    have hsplit : (.handed pack location text c :: as.map .act ++ .finished ended c₁ :: ds) =
        [Deed.handed pack location text c] ++ as.map .act ++ [.finished ended c₁] ++ ds := by simp
    rw [hsplit, Deed.handings_append, Deed.handings_append, Deed.handings_append,
      Deed.handings_map_act, ih]
    rfl

theorem isOwn_of_mem_reportDeeds {u : ScriptUnit} {a : Deed ω γ κ}
    (h : a ∈ reportDeeds plan d u) : a.isOwn := by
  unfold reportDeeds at h
  split at h
  · cases h
  · rw [List.mem_singleton.mp h]
    rfl
  · rcases List.mem_cons.mp h with rfl | h
    · rfl
    · split at h
      · cases h
      · rw [List.mem_singleton.mp h]
        rfl

theorem turns_of_runUnits {pack : String} {us us' : List ScriptUnit} {c c' : κ} {p p' : Pass ω γ}
    {ds : List (Deed ω γ κ)} (h : runUnits plan d r us c p = some (us', c', p'))
    (hds : unitsDeeds plan d r pack us c p = some ds) :
    Turns plan r pack (us.filterMap ScriptUnit.handout?) c p.world ds c' := by
  induction us generalizing c p us' ds with
  | nil =>
    cases h
    cases hds
    exact .nil c' p'.world
  | cons u us ih =>
    obtain ⟨u₁, c₁, w₁, es, us₁, hnoting, hus⟩ := runUnits_cons_noting pack h
    simp only [unitsDeeds, hnoting] at hds
    obtain ⟨rest, hrest, hds⟩ := Option.map_eq_some_iff.mp hds
    -- the report of the unit comes between its run and the turns of the units after it
    have hlater : Turns plan r pack (us.filterMap ScriptUnit.handout?) c₁ w₁
        (reportDeeds plan d u₁ ++ rest) c' := by
      refine .append_own (fun a ha => isOwn_of_mem_reportDeeds ha) ?_
      have hturns := ih hus hrest
      rw [endUnit, world_report] at hturns
      exact hturns
    rw [← hds, List.cons_append, List.cons_append, List.append_assoc]
    refine .own rfl ?_
    have hprepared : u.reset.prepared = u.prepared := rfl
    rcases run_noting_eq_some hnoting with
      ⟨text, ended, as, htext, hrun, -, rfl, rfl⟩ | ⟨f, htext, -, rfl, rfl, rfl⟩
    · have hhandout : u.handout? = some (u.location, text) := by
        simp only [ScriptUnit.handout?, ← hprepared, htext]
      rw [List.filterMap_cons_some hhandout, List.cons_append, List.cons_append, List.append_assoc]
      exact Turns.run hrun hlater
    · have hhandout : u.handout? = none := by
        unfold ScriptUnit.handout?
        split
        · next text h => exact absurd h (htext text)
        · rfl
      rw [List.filterMap_cons_none hhandout]
      exact hlater

theorem packTurns_of_loadPacks {globals : Table Global} {ks ks' : List (ScriptPack κ)}
    {p p' : Pass ω γ} {ds : List (Deed ω γ κ)}
    (h : loadPacks plan d r globals ks p = some (ks', p'))
    (hds : packsDeeds plan d r globals ks p = some ds) :
    PackTurns plan r globals ks p.world ds (ks'.map ScriptPack.context) := by
  induction ks generalizing p ks' ds with
  | nil =>
    cases h
    cases hds
    exact .nil _
  | cons k ks ih =>
    obtain ⟨k₁, p₁, ks₁, hk, hks, rfl⟩ := loadPacks_cons_eq_some h
    obtain ⟨es, hes, hworld⟩ := packDeeds_of_loadPack hk
    simp only [packsDeeds, hk, hes] at hds
    obtain ⟨rest, hrest, rfl⟩ := Option.map_eq_some_iff.mp hds
    have hlater := ih hks hrest
    rw [← hworld] at hlater
    rcases loadPack_eq_some hk with ⟨f, hf, rfl, -⟩ | ⟨c, c', us, hc, hus, rfl⟩
    · simp only [packDeeds, hf, Option.some.injEq] at hes
      refine .refused hf ?_ hlater
      intro a ha
      rw [← hes] at ha
      rcases List.mem_cons.mp ha with rfl | ha
      · rfl
      · obtain ⟨u, -, hu⟩ := List.mem_flatMap.mp ha
        exact isOwn_of_mem_reportDeeds hu
    · simp only [packDeeds, hc] at hes
      exact .granted hc (turns_of_runUnits hus hes) hlater

/-- The packs hand over what there is to run in those that are granted a context, and these are the
packs that have a context afterwards. -/
theorem PackTurns.handings {globals : Table Global} {ks : List (ScriptPack κ)} {w : World ω γ}
    {ds : List (Deed ω γ κ)} {cs : List (Option κ)} (h : PackTurns plan r globals ks w ds cs) :
    Deed.handings ds = (ks.filter (plan.grants globals)).flatMap ScriptPack.handouts ∧
      cs.map Option.isSome = ks.map (plan.grants globals) := by
  induction h with
  | nil w => exact ⟨rfl, rfl⟩
  | @refused k ks w ds es cs f hf hown _ ih =>
    have hgrants : plan.grants globals k = false := by rw [Plan.grants, hf]; rfl
    refine ⟨?_, ?_⟩
    · rw [Deed.handings_append, Deed.handings_of_isOwn hown, ih.1, List.nil_append,
        List.filter_cons_of_neg (by simp [hgrants])]
    · rw [List.map_cons, List.map_cons, ih.2, hgrants]
      rfl
  | @granted k ks w ds es cs c c' hc hturns _ ih =>
    have hgrants : plan.grants globals k = true := by rw [Plan.grants, hc]; rfl
    have hhandouts : k.handouts =
        (k.units.filterMap ScriptUnit.handout?).map fun t => (k.name, t) := by
      rw [ScriptPack.handouts, List.map_filterMap]
    refine ⟨?_, ?_⟩
    · rw [Deed.handings_append, hturns.handings, ih.1, List.filter_cons_of_pos hgrants,
        List.flatMap_cons, hhandouts]
    · rw [List.map_cons, List.map_cons, ih.2, hgrants]
      rfl

end

/-! ## The whole load -/

theorem Grown.inOrder_preparePacks {m : Manager ω γ κ} (h : m.Grown) :
    ∀ k ∈ preparePacks m.plan m.packs, InOrder k.units := by
  intro k hk
  exact (ScriptPack.grown_of_rosters h (roster_preparePacks m.plan m.packs) k hk).inOrder

theorem handings_of_chronicle {m : Manager ω γ κ} {r : Runner ω γ} {w : World ω γ}
    {deeds : List (Deed ω γ κ)} (h : m.chronicle r w = some deeds) :
    Deed.handings deeds = ((preparePacks m.plan m.packs).filter
      (m.plan.grants (m.gather w).1.merged)).flatMap ScriptPack.handouts := by
  unfold chronicle at h
  split at h
  · next packs p ds hload hds =>
    obtain ⟨s, -, rfl⟩ := Option.map_eq_some_iff.mp h
    rw [Deed.handings_append, Deed.handings_append, Deed.handings_append, Deed.handings_map_act,
      (packTurns_of_loadPacks hload hds).handings.1]
    exact (List.append_nil _).trans (List.append_nil _)
  · cases h

/-- **What a load hands to the engine.** Pack by pack, for the packs that are granted a context, and
unit by unit in the order in which units run, every unit with a text is handed over once, with the
text that was made of it and kept; nothing else is. The units of a pack share the context that was
made for the pack in this load, whatever becomes of them, and a pack has a context afterwards
exactly if it was granted one in this load. -/
theorem load_trace {m m' : Manager ω γ κ} {r : Runner ω γ} {w w' : World ω γ} (grown : m.Grown)
    (h : m.load r w = some (m', w')) :
    let globals := m'.registry.merged
    let packs := preparePacks m.plan m.packs
    (∃ (ds : List (Deed ω γ κ)) (as : List (Act ω γ)),
      let line := summaryLine m.plan.kind m'.summary
      let deeds := [.forgot m.desk, .gathered m.desk m.plan.kind] ++ ds ++
        [.switched m.desk none, .said m.desk line.level line.text] ++ as.map .act
      m.chronicle r w = some deeds ∧ Deed.replay deeds w = w' ∧
      PackTurns m.plan r globals packs (m.opening w).world ds (m'.packs.map ScriptPack.context) ∧
      Deed.handings deeds = (packs.filter (m.plan.grants globals)).flatMap ScriptPack.handouts) ∧
    (∀ k ∈ packs, InOrder k.units) ∧
    m'.packs.map ScriptPack.scripts = packs.map ScriptPack.scripts ∧
    (m'.packs.map fun k => k.context.isSome) = packs.map (m.plan.grants globals) ∧
    m'.Grown := by
  intro globals packs
  obtain ⟨deeds, hdeeds, hreplay⟩ := exists_chronicle h
  have hgrown := grown.load h
  obtain ⟨packs', p, hp, rfl, hfarewell⟩ := load_eq_some h
  obtain ⟨ds, hds, hworld⟩ := packsDeeds_of_loadPacks hp
  obtain ⟨⟨_, as⟩, has, -⟩ := Option.map_eq_some_iff.mp hfarewell
  have hturns := packTurns_of_loadPacks hp hds
  obtain ⟨hhandings, hcontexts⟩ := hturns.handings
  have hwhole := hdeeds
  simp only [chronicle, hp, hds, has, Option.map_some, Option.some.injEq] at hwhole
  refine ⟨⟨ds, as, ?_, ?_, hturns, ?_⟩, grown.inOrder_preparePacks, (accounted_of_loadPacks hp).2,
    ?_, hgrown⟩
  · rw [hdeeds, ← hwhole]
    rfl
  · rw [← hreplay, ← hwhole]
    rfl
  · rw [Deed.handings_append, Deed.handings_append, Deed.handings_append, Deed.handings_map_act,
      hhandings]
    exact (List.append_nil _).trans (List.append_nil _)
  · rw [List.map_map] at hcontexts
    exact hcontexts

/-- Of the four units one has a pack without a context and one has no text; the other two are handed
over, although the first of them crashes. -/
theorem load_trace_sample :
    ∃ m' w' deeds, Sample.manager.load .plain Sample.world = some (m', w') ∧
      Sample.manager.chronicle .plain Sample.world = some deeds ∧
      Deed.replay deeds Sample.world = w' ∧
      Deed.handings deeds = [("words", "b", "crash"), ("words", "c", "listen")] ∧
      (m'.packs.map fun k => k.context.isSome) = [false, true] := by
  have hsome : (Sample.manager.load .plain Sample.world).isSome := rfl
  obtain ⟨⟨m', w'⟩, h⟩ := Option.isSome_iff_exists.mp hsome
  have grown : Sample.manager.Grown := by
    intro k hk
    rcases List.mem_cons.mp hk with rfl | hk
    · exact .push (.empty ..) _
    · rw [List.mem_singleton.mp hk]
      exact .push (.push (.push (.empty ..) _) _) _
  obtain ⟨⟨ds, as, hchronicle, hreplay, -, hhandings⟩, -, -, hcontexts, -⟩ := load_trace grown h
  refine ⟨m', w', _, h, hchronicle, hreplay, ?_, ?_⟩
  · rw [hhandings]
    rfl
  · rw [hcontexts]
    rfl

end Manager

end PackHost
