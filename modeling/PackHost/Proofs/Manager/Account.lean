import PackHost.Proofs.Manager.Chronicle
import PackHost.Proofs.Manager.Discovery
import PackHost.Proofs.World.Dispatch

/-!
# The account of a load

Whichever way a unit goes, its fate, the counts and the list of failures change together.
`Accounted` says so for the units that were dealt with between two passes; it holds for one unit,
and is kept when units and packs follow one another. The main statement is `load_accounts`.
-/

namespace PackHost

open Pack

variable {ω γ κ : Type}

/-! ## Lines stay -/

def World.Keeps (w w' : World ω γ) : Prop :=
  w'.desks.size = w.desks.size ∧ ∀ d, (w.desk d).lines <:+ (w'.desk d).lines

namespace World.Keeps

theorem refl (w : World ω γ) : w.Keeps w := ⟨rfl, fun _ => List.suffix_refl _⟩

theorem trans {w w' w'' : World ω γ} (h : w.Keeps w') (h' : w'.Keeps w'') : w.Keeps w'' :=
  ⟨h'.1.trans h.1, fun d => (h.2 d).trans (h'.2 d)⟩

theorem of_continues {w w' : World ω γ} (h : w.Continues w') : w.Keeps w' :=
  ⟨h.1, fun d => (h.2 d).lines⟩

theorem changeDesk (w : World ω γ) (d : Nat) {f : Desk → Desk} (hf : ∀ k, (f k).lines = k.lines) :
    w.Keeps (w.changeDesk d f) := by
  refine ⟨size_changeDesk w d f, fun e => ?_⟩
  refine changeDesk_induct (R := fun k k' => k.lines <:+ k'.lines) w d ?_ ?_ e
  · intro k
    exact List.suffix_refl _
  · intro k
    exact ⟨[], (hf k).symm⟩

theorem say (w : World ω γ) (d : Nat) (level : Level) (text : String) :
    w.Keeps (w.say d level text) :=
  of_continues (.say w d level text)

theorem setUnit (w : World ω γ) (d : Nat) (location : Option String) :
    w.Keeps (w.setUnit d location) :=
  changeDesk w d fun _ => rfl

end World.Keeps

namespace Pack

def ScriptUnit.failureLine? (u : ScriptUnit) : Option String :=
  u.fate.failure?.map fun f => u.location ++ ": " ++ f.message

/-- The file of a unit, and its rewritten text as far as it is known. -/
def ScriptUnit.script (u : ScriptUnit) : ScriptFile × Option (Except Source.Fault String) :=
  (u.file, u.prepared)

/-- The name of a pack and the scripts of its units, in order. -/
def ScriptPack.scripts (k : ScriptPack κ) :
    String × List (ScriptFile × Option (Except Source.Fault String)) :=
  (k.name, k.units.map ScriptUnit.script)

theorem ScriptPack.map_roster_of_scripts {ks ks' : List (ScriptPack κ)}
    (h : ks'.map scripts = ks.map scripts) : ks'.map roster = ks.map roster := by
  have hroster : ∀ ks : List (ScriptPack κ),
      ks.map roster = (ks.map scripts).map fun s => (s.1, s.2.map Prod.fst) := by
    intro ks
    simp [roster, scripts, ScriptUnit.script, Function.comp_def]
  rw [hroster, hroster, h]

/-- A run leaves the script of a unit alone, and settles its fate. -/
theorem ScriptUnit.run_eq_some {σ : Type} {u u' : ScriptUnit}
    {execute : String → String → σ → Option (Outcome Unit × σ)} {s s' : σ}
    (h : u.run execute s = some (u', s')) :
    u'.script = u.script ∧ u'.fate ≠ .pending ∧
      (s' = s ∨ ∃ text ended, execute u.location text s = some (ended, s')) := by
  unfold run at h
  split at h
  · next text _ =>
    obtain ⟨⟨ended, s₁⟩, hexecute, h⟩ := Option.map_eq_some_iff.mp h
    cases h
    refine ⟨rfl, ?_, .inr ⟨text, ended, hexecute⟩⟩
    cases ended <;> simp [fateOf]
  · cases h
    exact ⟨rfl, by simp [fail], .inl rfl⟩
  · cases h
    exact ⟨rfl, by simp [fail], .inl rfl⟩

end Pack

namespace Manager

/-! ## Reports -/

section

variable (p : Pass ω γ) (kind : ScriptKind) (d : Nat) (u : ScriptUnit)

theorem summary_report :
    (p.report kind d u).summary =
      ⟨p.summary.loaded + if u.fate = .loaded then 1 else 0, p.summary.total⟩ := by
  unfold Pass.report
  cases hu : u.fate with
  | pending => rfl
  | loaded => rfl
  | failed f => cases hf : f.isScriptLevel <;> simp [Pass.reportFailure, Pass.say, hf]

theorem errors_report : (p.report kind d u).errors = p.errors ++ u.failureLine?.toList := by
  unfold Pass.report ScriptUnit.failureLine? Fate.failure?
  cases hu : u.fate with
  | pending => exact (List.append_nil _).symm
  | loaded => exact (List.append_nil _).symm
  | failed f => cases hf : f.isScriptLevel <;> simp [Pass.reportFailure, Pass.say, hf]

theorem keeps_report : p.world.Keeps (p.report kind d u).world := by
  unfold Pass.report
  cases hu : u.fate with
  | pending => exact .refl _
  | loaded => exact .say _ d _ _
  | failed f =>
    have hsaid := World.Keeps.say p.world d .error
      ("Error loading " ++ kind.name ++ " script " ++ (u.location ++ ": " ++ f.message))
    cases hf : f.isScriptLevel with
    | true => simpa [Pass.reportFailure, Pass.say, hf] using hsaid
    | false => simpa [Pass.reportFailure, Pass.say, hf] using hsaid.trans (.say _ d _ _)

end

/-! ## What is accounted for -/

/-- Between the two passes the given units were dealt with, each one once: all of them are settled,
they are counted, and the failures of those that failed are listed, in order. -/
structure Accounted (us : List ScriptUnit) (p p' : Pass ω γ) : Prop where
  settled : ∀ u ∈ us, u.fate ≠ .pending
  total : p'.summary.total = p.summary.total + us.length
  loaded : p'.summary.loaded = p.summary.loaded + us.countP fun u => u.fate = .loaded
  errors : p'.errors = p.errors ++ us.filterMap ScriptUnit.failureLine?
  world : p.world.Keeps p'.world

namespace Accounted

theorem nil (p : Pass ω γ) : Accounted [] p p where
  settled u hu := by cases hu
  total := rfl
  loaded := rfl
  errors := (List.append_nil _).symm
  world := .refl _

theorem say (p : Pass ω γ) (d : Nat) (level : Level) (text : String) :
    Accounted [] p (p.say d level text) where
  settled u hu := by cases hu
  total := rfl
  loaded := rfl
  errors := (List.append_nil _).symm
  world := .say p.world d level text

theorem append {us vs : List ScriptUnit} {p p' p'' : Pass ω γ} (h : Accounted us p p')
    (h' : Accounted vs p' p'') : Accounted (us ++ vs) p p'' where
  settled u hu := by
    rcases List.mem_append.mp hu with hu | hu
    · exact h.settled u hu
    · exact h'.settled u hu
  total := by
    have htotal := h.total
    have htotal' := h'.total
    rw [List.length_append]
    omega
  loaded := by
    have hloaded := h.loaded
    have hloaded' := h'.loaded
    rw [List.countP_append]
    omega
  errors := by rw [h'.errors, h.errors, List.filterMap_append, List.append_assoc]
  world := h.world.trans h'.world

theorem cons {u : ScriptUnit} {us : List ScriptUnit} {p p' p'' : Pass ω γ}
    (h : Accounted [u] p p') (h' : Accounted us p' p'') : Accounted (u :: us) p p'' :=
  h.append h'

/-- One more unit: it is counted, and then its fate is reported. -/
theorem endUnit {plan : Plan ω γ κ} {d : Nat} {p : Pass ω γ} {w : World ω γ} {u : ScriptUnit}
    (hu : u.fate ≠ .pending) (hw : p.world.Keeps w) :
    Accounted [u] p (endUnit plan d p w u) where
  settled v hv := by
    rw [List.mem_singleton.mp hv]
    exact hu
  total := by
    rw [Manager.endUnit, summary_report]
    rfl
  loaded := by
    rw [Manager.endUnit, summary_report, List.countP_singleton]
    simp [Pass.count]
  errors := by
    rw [Manager.endUnit, errors_report]
    cases h : u.failureLine? <;> simp [h, Pass.count]
  world := by
    rw [Manager.endUnit]
    exact hw.trans (keeps_report _ _ _ _)

end Accounted

/-! ## Units and packs one after another -/

section

variable {plan : Plan ω γ κ} {d : Nat} {r : Runner ω γ}

theorem keeps_of_execute {location text : String} {c c' : κ} {w w' : World ω γ}
    {ended : Outcome Unit}
    (h : plan.engine.execute r.run location text (c, w) = some (ended, c', w')) : w.Keeps w' := by
  obtain ⟨⟨⟨ended₁, c₁⟩, w₁⟩, hrun, h⟩ := Option.map_eq_some_iff.mp h
  cases h
  rw [← r.forget_run] at hrun
  obtain ⟨⟨_, as⟩, -, h⟩ := Option.map_eq_some_iff.mp hrun
  cases h
  exact .of_continues (replay_continues as w)

theorem accounted_of_runUnits {us us' : List ScriptUnit} {c c' : κ} {p p' : Pass ω γ}
    (h : runUnits plan d r us c p = some (us', c', p')) :
    Accounted us' p p' ∧ us'.map ScriptUnit.script = us.map ScriptUnit.script := by
  induction us generalizing c p us' with
  | nil =>
    cases h
    exact ⟨.nil _, rfl⟩
  | cons u us ih =>
    obtain ⟨u₁, c₁, w₁, us₁, hu, hus, rfl⟩ := runUnits_cons_eq_some h
    obtain ⟨hscript, hsettled, hworld⟩ := ScriptUnit.run_eq_some hu
    -- a unit without a text changes nothing beyond the name of the unit that is being run
    have hkeeps : p.world.Keeps w₁ := by
      refine (World.Keeps.setUnit p.world d (some u.location)).trans ?_
      rcases hworld with hworld | ⟨text, ended, hexecute⟩
      · cases hworld
        exact .refl _
      · exact keeps_of_execute hexecute
    obtain ⟨hrest, hscripts⟩ := ih hus
    refine ⟨(Accounted.endUnit hsettled hkeeps).cons hrest, ?_⟩
    rw [List.map_cons, List.map_cons, hscripts, hscript]
    rfl

theorem accounted_failUnits (f : Failure) (us : List ScriptUnit) (p : Pass ω γ) :
    Accounted (failUnits plan d f us p).1 p (failUnits plan d f us p).2 ∧
      (failUnits plan d f us p).1.map ScriptUnit.script = us.map ScriptUnit.script := by
  induction us generalizing p with
  | nil => exact ⟨.nil p, rfl⟩
  | cons u us ih =>
    obtain ⟨hrest, hscripts⟩ := ih (endUnit plan d p p.world (u.fail (.script f)))
    have hsettled : (u.fail (.script f)).fate ≠ .pending := by simp [ScriptUnit.fail]
    refine ⟨(Accounted.endUnit hsettled (.refl _)).cons hrest, ?_⟩
    exact congrArg (u.script :: ·) hscripts

theorem accounted_of_loadPack {globals : Table Global} {k k' : ScriptPack κ} {p p' : Pass ω γ}
    (h : loadPack plan d r globals k p = some (k', p')) :
    Accounted k'.units p p' ∧ k'.scripts = k.scripts := by
  rcases loadPack_eq_some h with ⟨f, -, rfl, rfl⟩ | ⟨c, c', us, -, hus, rfl⟩
  · obtain ⟨hfailed, hscripts⟩ := accounted_failUnits f k.units _
    exact ⟨(Accounted.say p d _ _).append hfailed, congrArg (k.name, ·) hscripts⟩
  · obtain ⟨hran, hscripts⟩ := accounted_of_runUnits hus
    exact ⟨hran, congrArg (k.name, ·) hscripts⟩

theorem accounted_of_loadPacks {globals : Table Global} {ks ks' : List (ScriptPack κ)}
    {p p' : Pass ω γ} (h : loadPacks plan d r globals ks p = some (ks', p')) :
    Accounted (ks'.flatMap ScriptPack.units) p p' ∧
      ks'.map ScriptPack.scripts = ks.map ScriptPack.scripts := by
  induction ks generalizing p ks' with
  | nil =>
    cases h
    exact ⟨.nil _, rfl⟩
  | cons k ks ih =>
    obtain ⟨k₁, p₁, ks₁, hk, hks, rfl⟩ := loadPacks_cons_eq_some h
    obtain ⟨hpack, hscripts⟩ := accounted_of_loadPack hk
    obtain ⟨hrest, hothers⟩ := ih hks
    refine ⟨hpack.append hrest, ?_⟩
    rw [List.map_cons, List.map_cons, hscripts, hothers]

end

/-! ## The whole load -/

/-- Settled units are the loaded ones and those with a line in the list of failures. -/
theorem countP_add_length_failureLines {us : List ScriptUnit} (h : ∀ u ∈ us, u.fate ≠ .pending) :
    (us.countP fun u => u.fate = .loaded) + (us.filterMap ScriptUnit.failureLine?).length =
      us.length := by
  induction us with
  | nil => rfl
  | cons u us ih =>
    obtain ⟨hu, hus⟩ := List.forall_mem_cons.mp h
    have hrest := ih hus
    cases hfate : u.fate with
    | pending => exact absurd hfate hu
    | loaded =>
      simp only [List.countP_cons, List.filterMap_cons, ScriptUnit.failureLine?, hfate,
        Fate.failure?, Option.map_none, List.length_cons, decide_true, ↓reduceIte] at hrest ⊢
      omega
    | failed f =>
      simp only [List.countP_cons, List.filterMap_cons, ScriptUnit.failureLine?, hfate,
        Fate.failure?, Option.map_some, List.length_cons, reduceCtorEq, decide_false] at hrest ⊢
      simp only [↓reduceIte]
      omega

theorem roster_preparePacks (plan : Plan ω γ κ) (ks : List (ScriptPack κ)) :
    (preparePacks plan ks).map ScriptPack.roster = ks.map ScriptPack.roster := by
  have hfile : ∀ u : ScriptUnit, (u.prepare plan.preprocessor).file = u.file := by
    intro u
    unfold ScriptUnit.prepare
    split <;> rfl
  have hroster : ∀ k : ScriptPack κ,
      ScriptPack.roster { k with units := k.units.map fun u => u.prepare plan.preprocessor } =
        k.roster := by
    intro k
    simp only [ScriptPack.roster, List.map_map, Function.comp_def, hfile]
  simp only [preparePacks, List.map_map, Function.comp_def, hroster]

theorem Grown.load {m m' : Manager ω γ κ} {r : Runner ω γ} {w w' : World ω γ} (h : m.Grown)
    (hload : m.load r w = some (m', w')) : m'.Grown := by
  obtain ⟨packs, p, hp, rfl, -⟩ := load_eq_some hload
  have hscripts := (accounted_of_loadPacks hp).2
  exact ScriptPack.grown_of_rosters h ((ScriptPack.map_roster_of_scripts hscripts).trans
    (roster_preparePacks m.plan m.packs))

/-- What the console and the unit that is being run look like once a load is over. -/
theorem desk_of_farewell {m : Manager ω γ κ} {r : Runner ω γ} {p : Pass ω γ} {w' : World ω γ}
    (seated : m.desk < p.world.desks.size)
    (h : (m.farewell r).forget (m.closing p) = some ((), w')) :
    (w'.desk m.desk).currentUnit = none ∧
      m.closingLine p :: (p.world.desk m.desk).lines <:+ (w'.desk m.desk).lines := by
  obtain ⟨⟨_, as⟩, -, h⟩ := Option.map_eq_some_iff.mp h
  cases h
  have hdesk : (m.closing p).desk m.desk =
      { p.world.desk m.desk with
        currentUnit := none
        lines := m.closingLine p :: (p.world.desk m.desk).lines } := by
    rw [closing, World.desk_say, World.desk_changeDesk, World.setUnit, World.size_changeDesk,
      if_pos ⟨rfl, seated⟩, World.desk_changeDesk, if_pos ⟨rfl, seated⟩]
  have hcontinues := (replay_continues as (m.closing p)).2 m.desk
  rw [hdesk] at hcontinues
  exact ⟨hcontinues.unit, hcontinues.lines⟩

theorem keeps_opening (m : Manager ω γ κ) (w : World ω γ) : w.Keeps (m.opening w).world := by
  have hdropped : w.Keeps (w.dropOwned m.desk) := World.Keeps.changeDesk w m.desk fun _ => rfl
  exact hdropped.trans ⟨rfl, fun _ => List.suffix_refl _⟩

/-- **The account of a load.** Every unit of every pack is loaded and has no failure, or has failed
with one. The total counts all units, the loaded ones are counted as such, and the list holds the
failures of the failed ones, pack by pack and unit by unit, and nothing else. No unit is being run
any more, and the line that sums up the load is an error line exactly if there are failures. -/
theorem load_accounts {m m' : Manager ω γ κ} {r : Runner ω γ} {w w' : World ω γ}
    (seated : m.desk < w.desks.size) (h : m.load r w = some (m', w')) :
    let units := m'.packs.flatMap ScriptPack.units
    let line := summaryLine m.plan.kind m'.summary
    m'.packs.map ScriptPack.roster = m.packs.map ScriptPack.roster ∧
    (∀ u ∈ units, (u.fate = .loaded ∧ u.fate.failure? = none) ∨
      ∃ f, u.fate = .failed f ∧ u.fate.failure? = some f) ∧
    m'.summary.total = units.length ∧
    (m'.summary.loaded = units.countP fun u => u.fate = .loaded) ∧
    m'.summary.loaded ≤ m'.summary.total ∧
    m'.summary.loaded + m'.summary.failed = m'.summary.total ∧
    (m'.errors = units.filterMap fun u =>
      u.fate.failure?.map fun f => u.location ++ ": " ++ f.message) ∧
    (w'.desk m.desk).currentUnit = none ∧
    (∃ earlier later, (w'.desk m.desk).lines = later ++ line :: earlier ∧
      (w.desk m.desk).lines <:+ earlier) ∧
    (line.level = .error ↔ m'.errors ≠ []) := by
  intro units line
  obtain ⟨packs, p, hp, rfl, hfarewell⟩ := load_eq_some h
  obtain ⟨haccount, hscripts⟩ := accounted_of_loadPacks hp
  -- the counts and the list begin empty, so what the packs add to them is all there is
  have htotal : p.summary.total = units.length := by
    rw [haccount.total]
    exact Nat.zero_add _
  have hloaded : p.summary.loaded = units.countP fun u => u.fate = .loaded := by
    rw [haccount.loaded]
    exact Nat.zero_add _
  have herrors : p.errors = units.filterMap ScriptUnit.failureLine? := by
    rw [haccount.errors]
    exact List.nil_append _
  have hsum : p.summary.loaded + p.errors.length = p.summary.total := by
    rw [hloaded, herrors, htotal]
    exact countP_add_length_failureLines haccount.settled
  have hle : p.summary.loaded ≤ p.summary.total := by omega
  have hkeeps : w.Keeps p.world := (m.keeps_opening w).trans haccount.world
  obtain ⟨hunit, later, hlater⟩ := desk_of_farewell (by rw [hkeeps.1]; exact seated) hfarewell
  have hroster := (ScriptPack.map_roster_of_scripts hscripts).trans
    (roster_preparePacks m.plan m.packs)
  refine ⟨hroster, ?_, htotal, hloaded, hle, ?_, herrors, hunit,
     ⟨(p.world.desk m.desk).lines, later, hlater.symm, hkeeps.2 m.desk⟩, ?_⟩
  · intro u hu
    cases hfate : u.fate with
    | pending => exact absurd hfate (haccount.settled u hu)
    | loaded => exact .inl ⟨rfl, rfl⟩
    | failed f => exact .inr ⟨f, rfl, rfl⟩
  · exact Nat.add_sub_cancel' hle
  · show (if p.summary.loaded = p.summary.total then Level.info else .error) = .error ↔
      p.errors ≠ []
    have hempty : p.errors = [] ↔ p.summary.loaded = p.summary.total := by
      rw [← List.length_eq_zero_iff]
      omega
    rw [Ne, hempty]
    split <;> simp_all

/-! ## A small host -/

namespace Sample

def engine : Engine Unit Empty (Table Global) where
  name := "words"
  extension := "word"
  create spec := if spec.pack = "broken" then .error (.context spec.pack) else .ok spec.globals
  run c _ text :=
    if text = "listen" then
      match c.get? "onEvent" with
      | some ⟨.function f, _⟩ => .call f [.text "tick", .function f] fun
        | .done _ => .done (.done (), c)
        | .failed e => .done (.failed e, c)
        | .crashed message => .done (.crashed message, c)
      | _ => .done (.failed (.runtime "onEvent is missing" none), c)
    else if text = "crash" then .done (.crashed none, c)
    else .done (.done (), c)
  has c name := c.contains name
  global c name := .done ((c.get? name).map Global.value)
  names c := Table.names c

def plan : Plan Unit Empty (Table Global) where
  kind := .server
  directory := ⟨"scripts"⟩
  engine := engine
  preprocessor source := some (if source = "refuse" then .error (.other "refused") else .ok source)
  restriction := .none
  settings := []
  extra := []

def unit (location source : String) : ScriptUnit := .ofFile ⟨location, ⟨location⟩, 0, source⟩

def broken : ScriptPack (Table Global) :=
  (ScriptPack.empty "broken" "" ⟨"broken"⟩).push (unit "a" "listen")

def words : ScriptPack (Table Global) :=
  let pack := (ScriptPack.empty "words" "" ⟨"words"⟩).push (unit "c" "listen")
  (pack.push (unit "d" "refuse")).push (unit "b" "crash")

def manager : Manager Unit Empty (Table Global) := { create plan 0 with packs := [broken, words] }

def world : World Unit Empty := (World.fresh ()).addDesk .kept

end Sample

/-- One of four units is loaded, and the other three fail in three different ways. -/
theorem load_accounts_sample :
    ∃ m' w', Sample.manager.load .plain Sample.world = some (m', w') ∧ m'.summary = ⟨1, 4⟩ ∧
      m'.summary.total = (m'.packs.flatMap ScriptPack.units).length ∧
      (m'.errors = (m'.packs.flatMap ScriptPack.units).filterMap fun u =>
        u.fate.failure?.map fun f => u.location ++ ": " ++ f.message) ∧
      (w'.desk 0).currentUnit = none := by
  have hsome : (Sample.manager.load .plain Sample.world).isSome := rfl
  obtain ⟨⟨m', w'⟩, h⟩ := Option.isSome_iff_exists.mp hsome
  have seated : Sample.manager.desk < Sample.world.desks.size := by decide
  have hsummary : (Sample.manager.load .plain Sample.world).map (fun s => s.1.summary) =
      some ⟨1, 4⟩ := rfl
  rw [h] at hsummary
  obtain ⟨-, -, htotal, -, -, -, herrors, hunit, -⟩ := load_accounts seated h
  exact ⟨m', w', h, Option.some.inj hsummary, htotal, herrors, hunit⟩

end Manager

end PackHost
