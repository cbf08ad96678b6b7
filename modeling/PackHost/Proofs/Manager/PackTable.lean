import PackHost.Proofs.Manager.Findings
import PackHost.Proofs.Manager.HostCall

/-!
# The table of packs

However a host uses a manager, its packs are those of the directories that it looked into since
packs were last forgotten: each name once, in the order in which the names were first found, and
each pack as it was found last (`Manager.Tabled`). The main statement is `packs_of_calls`.
-/

namespace PackHost

open Pack

variable {ω γ κ : Type}

namespace Manager

/-- The names of the wanted packs that were looked for, in order. -/
def wantedNames (m : Manager ω γ κ) (seen : List Visit) : List String :=
  (seen.map fun v => m.packName v.directory).filter fun name => (m.settingsOf name).enabled

def lastVisit? (m : Manager ω γ κ) (seen : List Visit) (name : String) : Option Visit :=
  (seen.filter fun v => m.packName v.directory = name).getLast?

theorem wantedNames_append (m : Manager ω γ κ) (seen : List Visit) (v : Visit) :
    m.wantedNames (seen ++ [v]) = m.wantedNames seen ++
      if (m.settingsOf (m.packName v.directory)).enabled then [m.packName v.directory] else [] := by
  rw [wantedNames, wantedNames, List.map_append, List.filter_append]
  congr 1
  simp only [List.map_cons, List.map_nil, List.filter_cons, List.filter_nil]

theorem lastVisit?_append_of_eq {m : Manager ω γ κ} {seen : List Visit} {v : Visit} {name : String}
    (h : m.packName v.directory = name) :
    m.lastVisit? (seen ++ [v]) name = some v := by
  simp [lastVisit?, h]

theorem lastVisit?_append_of_ne {m : Manager ω γ κ} {seen : List Visit} {v : Visit} {name : String}
    (h : m.packName v.directory ≠ name) :
    m.lastVisit? (seen ++ [v]) name = m.lastVisit? seen name := by
  simp [lastVisit?, h]

theorem eraseDups_append_singleton (names : List String) (name : String) :
    (names ++ [name]).eraseDups =
      if name ∈ names.eraseDups then names.eraseDups else names.eraseDups ++ [name] := by
  simp only [List.eraseDups_append, List.mem_eraseDups]
  by_cases h : name ∈ names <;> simp [List.removeAll, List.eraseDups_cons, h]

theorem mem_of_lastVisit?_eq_some {m : Manager ω γ κ} {seen : List Visit} {v : Visit}
    {name : String}
    (h : m.lastVisit? seen name = some v) : v ∈ seen :=
  (List.mem_filter.mp (List.mem_of_getLast? h)).1

/-- The packs are those that were looked for and are wanted, each once, in the order in which they
were first looked for, and each as it was found by the last look. -/
structure Tabled (m : Manager ω γ κ) (seen : List Visit) : Prop where
  distinct : (m.packs.map ScriptPack.name).Nodup
  names : m.packs.map ScriptPack.name = (m.wantedNames seen).eraseDups
  latest : ∀ k ∈ m.packs, ∃ v, m.lastVisit? seen k.name = some v ∧
    k.findings = (m.packIn v.tree v.directory).findings

namespace Tabled

variable {m m' : Manager ω γ κ} {seen : List Visit}

theorem of_packs_eq_nil (h : m.packs = []) : m.Tabled [] where
  distinct := by
    rw [h]
    exact List.nodup_nil
  names := by
    rw [h]
    rfl
  latest k hk := by
    rw [h] at hk
    cases hk

theorem congr (h : m.Tabled seen) (plan : m'.plan = m.plan)
    (findings : m'.packs.map ScriptPack.findings = m.packs.map ScriptPack.findings) :
    m'.Tabled seen := by
  have hnames : m'.packs.map ScriptPack.name = m.packs.map ScriptPack.name := by
    have hname := congrArg (List.map Prod.fst) findings
    rwa [List.map_map, List.map_map] at hname
  refine ⟨by rw [hnames]; exact h.distinct, ?_, fun k hk => ?_⟩
  · rw [hnames, h.names, wantedNames, wantedNames, packName_congr plan, settingsOf_congr plan]
  · obtain ⟨k₀, hk₀, heq⟩ := Pack.exists_of_map_findings findings hk
    obtain ⟨v, hv, hfound⟩ := h.latest k₀ hk₀
    have hname : k₀.name = k.name := congrArg Prod.fst heq
    refine ⟨v, ?_, ?_⟩
    · rw [← hname, ← hv, lastVisit?, lastVisit?, packName_congr plan]
    · rw [← heq, hfound, packIn_congr plan]

theorem enabled (h : m.Tabled seen) {k : ScriptPack κ} (hk : k ∈ m.packs) :
    (m.settingsOf k.name).enabled = true := by
  have hname : k.name ∈ m.packs.map ScriptPack.name := List.mem_map_of_mem hk
  rw [h.names, List.mem_eraseDups] at hname
  exact (List.mem_filter.mp hname).2

/-- The pack of an unwanted name cannot be dropped, since there is none. -/
theorem packs_discoverPack_of_disabled (h : m.Tabled seen) (t : Files.Tree) {directory : Files.Path}
    (w : World ω γ) (hoff : (m.settingsOf (m.packName directory)).enabled = false) :
    (m.discoverPack t directory w).1.packs = m.packs := by
  rw [discoverPack_of_disabled m t directory w hoff]
  refine List.filter_eq_self.mpr fun k hk => ?_
  rw [decide_eq_true_iff]
  rintro heq
  have hon := h.enabled hk
  rw [heq, hoff] at hon
  cases hon

/-- A pack that was found before is replaced where it stands. -/
theorem packs_discoverPack_of_getElem? (h : m.Tabled seen) (t : Files.Tree) {directory : Files.Path}
    (w : World ω γ) {i : Nat} {k : ScriptPack κ} (hk : m.packs[i]? = some k)
    (hname : k.name = m.packName directory) :
    (m.discoverPack t directory w).1.packs = m.packs.set i (m.packIn t directory) := by
  have hon := h.enabled (List.mem_of_getElem? hk)
  rw [hname] at hon
  rw [discoverPack_of_enabled m t directory w hon]
  exact replacePack_eq_set h.distinct hk (hname.trans (m.name_packIn t directory).symm)

/-- A pack that was not found before is put behind the others. -/
theorem packs_discoverPack_of_not_mem (t : Files.Tree) {directory : Files.Path} (w : World ω γ)
    (hon : (m.settingsOf (m.packName directory)).enabled = true)
    (hnew : m.packName directory ∉ m.packs.map ScriptPack.name) :
    (m.discoverPack t directory w).1.packs = m.packs ++ [m.packIn t directory] := by
  rw [discoverPack_of_enabled m t directory w hon]
  exact replacePack_of_not_mem (by rwa [name_packIn])

/-! ## Steps -/

theorem discoverPack (h : m.Tabled seen) (t : Files.Tree) (directory : Files.Path)
    (w : World ω γ) : (m.discoverPack t directory w).1.Tabled (seen ++ [⟨t, directory⟩]) := by
  cases hon : (m.settingsOf (m.packName directory)).enabled with
  | false =>
    have hpacks := h.packs_discoverPack_of_disabled t w hon
    have hplan : (m.discoverPack t directory w).1.plan = m.plan := by
      rw [discoverPack_of_disabled m t directory w hon]
    have hsame : m.Tabled (seen ++ [⟨t, directory⟩]) := by
      refine ⟨h.distinct, ?_, fun k hk => ?_⟩
      · have hoff : ¬(m.settingsOf (m.packName directory)).enabled = true := by
          rw [hon]
          exact Bool.false_ne_true
        rw [wantedNames_append, if_neg hoff, List.append_nil]
        exact h.names
      · have hne : m.packName directory ≠ k.name := by
          rintro heq
          have hk := h.enabled hk
          rw [← heq, hon] at hk
          cases hk
        rw [lastVisit?_append_of_ne (v := ⟨t, directory⟩) hne]
        exact h.latest k hk
    exact hsame.congr hplan (congrArg (List.map ScriptPack.findings) hpacks)
  | true =>
    have hdiscover := discoverPack_of_enabled m t directory w hon
    generalize m.discoverPack t directory w = found at hdiscover
    have hname := m.name_packIn t directory
    have hmap : (replacePack (m.packIn t directory) m.packs).map ScriptPack.name =
        if m.packName directory ∈ m.packs.map ScriptPack.name then m.packs.map ScriptPack.name
        else m.packs.map ScriptPack.name ++ [m.packName directory] := by
      rw [map_name_replacePack, hname]
    have hplaced : Manager.Tabled
        { m with packs := replacePack (m.packIn t directory) m.packs }
        (seen ++ [⟨t, directory⟩]) := by
      refine ⟨?_, ?_, fun k hk => ?_⟩
      · rw [hmap]
        split
        · exact h.distinct
        · next hnew =>
          rw [List.nodup_append]
          refine ⟨h.distinct, List.nodup_singleton _, fun a ha b hb heq => hnew ?_⟩
          rw [← List.mem_singleton.mp hb, ← heq]
          exact ha
      · have hwanted := m.wantedNames_append seen ⟨t, directory⟩
        rw [if_pos hon] at hwanted
        have hnames : ((m.wantedNames seen ++ [m.packName directory]).eraseDups) =
            (replacePack (m.packIn t directory) m.packs).map ScriptPack.name := by
          rw [hmap, eraseDups_append_singleton, ← h.names]
        rw [← hnames, ← hwanted]
        rfl
      · rcases mem_replacePack_of_distinct h.distinct hk with rfl | ⟨hk, hne⟩
        · exact ⟨⟨t, directory⟩,
            lastVisit?_append_of_eq (m := m) (v := ⟨t, directory⟩) hname.symm, rfl⟩
        · rw [hname] at hne
          obtain ⟨v, hv, hfound⟩ := h.latest k hk
          refine ⟨v, ?_, hfound⟩
          rw [← hv]
          exact lastVisit?_append_of_ne (m := m) (v := ⟨t, directory⟩) (Ne.symm hne)
    rw [hdiscover]
    exact hplaced

theorem load (h : m.Tabled seen) {r : Runner ω γ} {w w' : World ω γ}
    (hload : m.load r w = some (m', w')) : m'.Tabled seen :=
  h.congr (plan_load hload) (findings_load hload)

theorem performAll (h : m.Tabled seen) {r : Runner ω γ} {w w' : World ω γ}
    {cs : List (HostCall ω γ)} (hcs : HostCall.performAll r cs m w = some (m', w')) :
    m'.Tabled (HostCall.visitsAll r cs m w seen) :=
  HostCall.performAll_induct (P := Tabled) (fun t directory w h => h.discoverPack t directory w)
    (fun _ h => h.congr rfl rfl) (fun _ _ => of_packs_eq_nil rfl)
    (fun hload h => h.load hload) hcs seen h

end Tabled

/-- **The table of packs.** Whatever a host has done with a new manager, the packs have different
names, none of them is of a name that is turned off, and they are in the order in which their names
were first looked for since packs were last forgotten. The root, the description and the units of
each are what the last look for its name has found. A further look for the name of a pack puts what
it finds into the place of this pack and leaves the other packs alone, a look for a new name puts it
behind them, and a look for a name that is turned off changes no pack. -/
theorem packs_of_calls {r : Runner ω γ} {plan : Plan ω γ κ} {d : Nat} {calls : List (HostCall ω γ)}
    {m : Manager ω γ κ} {w₀ w : World ω γ}
    (h : HostCall.performAll r calls (create plan d) w₀ = some (m, w)) :
    let seen := HostCall.visitsAll r calls (create plan d) w₀ []
    m.plan = plan ∧
    (m.packs.map ScriptPack.name).Nodup ∧
    (∀ k ∈ m.packs, (m.settingsOf k.name).enabled = true) ∧
    m.packs.map ScriptPack.name = (m.wantedNames seen).eraseDups ∧
    (∀ k ∈ m.packs, ∃ v, m.lastVisit? seen k.name = some v ∧
      k.root = v.directory ∧
      k.description = ((m.settingsOf k.name).description.getD "") ∧
      k.units.map ScriptUnit.file = (m.packIn v.tree v.directory).units.map ScriptUnit.file) ∧
    ∀ t directory w',
      let packs := (m.discoverPack t directory w').1.packs
      (∀ i k, m.packs[i]? = some k → k.name = m.packName directory →
        packs = m.packs.set i (m.packIn t directory)) ∧
      (m.packName directory ∉ m.packs.map ScriptPack.name →
        (m.settingsOf (m.packName directory)).enabled = true →
        packs = m.packs ++ [m.packIn t directory]) ∧
      ((m.settingsOf (m.packName directory)).enabled = false → packs = m.packs) := by
  intro seen
  have htabled : m.Tabled seen := (Tabled.of_packs_eq_nil rfl).performAll h
  refine ⟨HostCall.plan_performAll h, htabled.distinct, fun k hk => htabled.enabled hk,
    htabled.names, ?_, ?_⟩
  · intro k hk
    obtain ⟨v, hv, hfound⟩ := htabled.latest k hk
    have hname : k.name = m.packName v.directory := by
      rw [← m.name_packIn v.tree v.directory]
      exact congrArg Prod.fst hfound
    have hdescription : k.description = (m.packIn v.tree v.directory).description :=
      congrArg (fun found => found.2.1) hfound
    have hroot : k.root = (m.packIn v.tree v.directory).root :=
      congrArg (fun found => found.2.2.1) hfound
    refine ⟨v, hv, ?_, ?_, congrArg (fun found => found.2.2.2) hfound⟩
    · rw [hroot, root_packIn]
    · rw [hdescription, description_packIn, hname]
  · intro t directory w'
    refine ⟨fun i k hk hname => htabled.packs_discoverPack_of_getElem? t w' hk hname,
      fun hnew hon => ?_,
      htabled.packs_discoverPack_of_disabled t w'⟩
    exact Tabled.packs_discoverPack_of_not_mem t w' hon hnew

/-! ## A small host -/

/-- A missing directory holds a pack without units. -/
theorem discoverPack_of_missing {m : Manager ω γ κ} {t : Files.Tree} {directory : Files.Path}
    (missing : t.contains directory = false)
    (hon : (m.settingsOf (m.packName directory)).enabled = true) (w : World ω γ) :
    m.discoverPack t directory w =
      ({ m with packs := replacePack (.empty (m.packName directory)
          ((m.settingsOf (m.packName directory)).description.getD "") directory) m.packs }, w) := by
  have hfiles : t.filesWithExtension directory m.plan.engine.extension = [] := by
    rw [Files.Tree.filesWithExtension, missing]
    rfl
  simp only [discoverPack, hon, if_true, hfiles]
  rfl

namespace Sample

def word : ScriptFile := ⟨"a.word", ⟨"scripts/a.word"⟩, 0, "listen"⟩

theorem fits_word : Fits word "word" where
  path := rfl
  components := rfl
  plain := by decide
  extension := rfl
  location := rfl
  text := rfl
  parsed := rfl

def tree : Files.Tree := shelf word

def more : Files.Path := ⟨"more"⟩

def again : Files.Path := ⟨"old/scripts"⟩

def discovered : Manager Unit Empty (Table Global) :=
  { create plan 0 with packs := [shelved word], state := .discovered }

def looked : Manager Unit Empty (Table Global) :=
  { discovered with packs := [shelved word, .empty "more" "" more] }

theorem missing_more : tree.contains more = false := by
  have hcomponents : Files.Path.components ⟨"more"⟩ = [.normal "more"] := rfl
  simp [Files.Tree.contains, Files.Tree.find, Files.Tree.locate, Files.Tree.follow,
    Files.Tree.wantsDirectory, Files.Tree.startOf, Files.Node.at?, Table.get?, tree, shelf, more,
    hcomponents]

theorem packName_sample (m : Manager Unit Empty (Table Global)) :
    m.packName ⟨"scripts"⟩ = "scripts" ∧ m.packName more = "more" ∧
      m.packName again = "scripts" := by
  refine ⟨?_, ?_, ?_⟩
  · rw [packName, show Files.Path.fileName? ⟨"scripts"⟩ = some "scripts" by decide]
    rfl
  · rw [packName, show more.fileName? = some "more" by decide]
    rfl
  · rw [packName, show again.fileName? = some "scripts" by decide]
    rfl

theorem discoverPack_more : discovered.discoverPack tree more world = (looked, world) := by
  obtain ⟨-, hname, -⟩ := packName_sample discovered
  rw [discoverPack_of_missing missing_more (by rw [hname]; rfl), hname]
  rfl

/-- A discovery, a look into another directory, a load, and a look into a directory that has the
name of the root directory. -/
def looks : List (HostCall Unit Empty) :=
  [.discover tree, .discoverPack tree more, .load, .discoverPack tree again]

end Sample

/-- The pack of the root directory keeps its place, and the other directory becomes its root. -/
theorem packs_of_calls_sample :
    ∃ m w, HostCall.performAll .plain Sample.looks (create Sample.plan 0) Sample.world =
        some (m, w) ∧
      m.packs.map ScriptPack.name = ["scripts", "more"] ∧
      ∀ k ∈ m.packs, k.name = "scripts" → k.root = Sample.again := by
  have hsome : (Sample.looked.load .plain Sample.world).isSome := rfl
  obtain ⟨⟨m, w⟩, hload⟩ := Option.isSome_iff_exists.mp hsome
  have hdiscover : (create Sample.plan 0).discover Sample.tree Sample.world =
      (Sample.discovered, Sample.tree, Sample.world) := 
    Sample.discover_shelf Sample.fits_word rfl rfl rfl rfl Sample.world
  have hcalls : HostCall.performAll .plain Sample.looks (create Sample.plan 0) Sample.world =
      some (m.discoverPack Sample.tree Sample.again w) := by
    simp only [Sample.looks, HostCall.performAll, HostCall.perform, hdiscover, hload,
      Sample.discoverPack_more, Option.bind_some]
  have hseed : (create Sample.plan 0).seed Sample.tree Sample.world = (Sample.tree, Sample.world) :=
    Sample.seed_shelf rfl Sample.world
  have hseen : HostCall.visitsAll .plain Sample.looks (create Sample.plan 0) Sample.world [] =
      [⟨Sample.tree, ⟨"scripts"⟩⟩, ⟨Sample.tree, Sample.more⟩, ⟨Sample.tree, Sample.again⟩] := by
    simp only [Sample.looks, HostCall.visitsAll, HostCall.visits, HostCall.perform, hdiscover,
      hload, Sample.discoverPack_more, rounds, hseed]
    rfl
  obtain ⟨⟨m', w'⟩, hagain⟩ : ∃ s, m.discoverPack Sample.tree Sample.again w = s := ⟨_, rfl⟩
  rw [hagain] at hcalls
  obtain ⟨hplan, -, -, hnames, hlatest, -⟩ := packs_of_calls hcalls
  obtain ⟨hscripts, hmore, hagain⟩ := Sample.packName_sample m'
  have hon : ∀ name, (m'.settingsOf name).enabled = true := by
    intro name
    rw [settingsOf, hplan]
    rfl
  rw [hseen] at hnames hlatest
  refine ⟨m', w', hcalls, ?_, fun k hk hname => ?_⟩
  · rw [hnames]
    simp only [wantedNames, List.map_cons, List.map_nil, hscripts, hmore, hagain, hon,
      List.filter_true]
    decide
  · obtain ⟨v, hv, hroot, -⟩ := hlatest k hk
    have hlast : m'.lastVisit? [⟨Sample.tree, ⟨"scripts"⟩⟩, ⟨Sample.tree, Sample.more⟩,
        ⟨Sample.tree, Sample.again⟩] "scripts" = some ⟨Sample.tree, Sample.again⟩ := by
      simp [lastVisit?, hscripts, hmore, hagain]
    rw [hname, hlast] at hv
    cases hv
    exact hroot

end Manager

end PackHost
