import PackHost.Proofs.Files.Silence
import PackHost.Proofs.Manager.PackTable
import PackHost.Proofs.Pack.Order

/-!
# Watching what is loaded

A manager and a watch decide on their own which files count. They agree: the files of all units are
tracked, and as long as scans are silent, packs that are looked for again are found as they were
(`watch_covers_packs`). Roots below other roots are the exception, since a link may take the place
of a directory in between (`silent_scan_loses_unit`).
-/

namespace PackHost

open Pack

variable {ω γ κ : Type}

namespace Manager

/-! ## Files and units -/

section

variable {t t' : Files.Tree} {root path : Files.Path} {file : ScriptFile}

/-- A file that was read is there under its own path. -/
theorem fileAt?_eq_some (h : fileAt? t root path = some file) :
    file.path = path ∧ t.contains path = true := by
  rw [fileAt?_eq_some_iff] at h
  exact ⟨(ScriptFile.read_eq_ok_some h).1, contains_of_read h⟩

theorem fileAt?_congr (h : t'.read path = t.read path) :
    fileAt? t' root path = fileAt? t root path := by
  rw [fileAt?, fileAt?, ScriptFile.read, ScriptFile.read, h]

theorem mem_files_pushFiles {k : ScriptPack κ} {files : List ScriptFile}
    (h : file ∈ (pushFiles k files).units.map ScriptUnit.file) :
    file ∈ k.units.map ScriptUnit.file ∨ file ∈ files := by
  rw [((perm_units_pushFiles k files).map ScriptUnit.file).mem_iff] at h
  simpa [ScriptUnit.ofFile] using h

/-- The files of a pack are among those below its root. -/
theorem mem_files_packIn {m : Manager ω γ κ} {directory : Files.Path}
    (h : file ∈ (m.packIn t directory).units.map ScriptUnit.file) :
    file.path ∈ t.filesWithExtension directory m.plan.engine.extension ∧
      t.contains file.path = true := by
  rcases mem_files_pushFiles h with h | h
  · cases h
  · obtain ⟨path, hpath, hfile⟩ := List.mem_filterMap.mp h
    obtain ⟨rfl, hthere⟩ := fileAt?_eq_some hfile
    exact ⟨hpath, hthere⟩

/-- Files that cannot be found leave no trace in a pack. -/
theorem filterMap_fileAt? (t : Files.Tree) (root : Files.Path) (paths : List Files.Path) :
    paths.filterMap (fileAt? t root) = (paths.filter t.contains).filterMap (fileAt? t root) := by
  rw [List.filterMap_filter]
  refine List.filterMap_congr fun path _ => ?_
  split
  · rfl
  · next hmissing =>
    cases hfile : fileAt? t root path with
    | none => rfl
    | some file => exact absurd (fileAt?_eq_some hfile).2 hmissing

end

/-! ## Packs that were found in one tree -/

section

variable {m : Manager ω γ κ} {seen : List Visit} {t t' : Files.Tree}

def FoundIn (m : Manager ω γ κ) (seen : List Visit) (t : Files.Tree) : Prop :=
  ∀ k ∈ m.packs, ∀ v, m.lastVisit? seen k.name = some v → v.tree = t

/-- The pack is what its root holds in the given tree. -/
structure Stands (m : Manager ω γ κ) (t : Files.Tree) (k : ScriptPack κ) : Prop where
  name : k.name = m.packName k.root
  findings : (m.packIn t k.root).findings = k.findings

theorem Tabled.found (h : m.Tabled seen) (found : m.FoundIn seen t) {k : ScriptPack κ}
    (hk : k ∈ m.packs) : m.Stands t k := by
  obtain ⟨v, hv, hfound⟩ := h.latest k hk
  rw [found k hk v hv] at hfound
  have hname : k.name = (m.packIn t v.directory).name := congrArg Prod.fst hfound
  have hroot : k.root = (m.packIn t v.directory).root :=
    congrArg (fun found => found.2.2.1) hfound
  rw [name_packIn] at hname
  rw [root_packIn] at hroot
  exact ⟨by rw [hroot]; exact hname, by rw [hroot]; exact hfound.symm⟩

/-- Roots of different packs are different as paths. -/
theorem Tabled.roots_distinct (h : m.Tabled seen) (found : m.FoundIn seen t) :
    ∀ r ∈ m.roots, ∀ s ∈ m.roots, r.components = s.components → r = s := by
  intro r hr s hs hsame
  obtain ⟨k, hk, rfl⟩ := List.mem_map.mp hr
  obtain ⟨k', hk', rfl⟩ := List.mem_map.mp hs
  have hname : k.name = k'.name := by
    rw [(h.found found hk).name, (h.found found hk').name, packName, packName, Files.Path.fileName?,
      Files.Path.fileName?, hsame]
  rw [List.inj_on_of_nodup_map h.distinct hk hk' hname]

/-- A pack that is found again as it was changes nothing. -/
theorem Tabled.findings_discoverPack (h : m.Tabled seen) {k : ScriptPack κ}
    (hk : k ∈ m.packs) (stands : m.Stands t' k) (w : World ω γ) :
    (m.discoverPack t' k.root w).1.packs.map ScriptPack.findings =
      m.packs.map ScriptPack.findings := by
  obtain ⟨i, hi⟩ := List.mem_iff_getElem?.mp hk
  rw [h.packs_discoverPack_of_getElem? t' w hi stands.name, List.map_set, stands.findings]
  refine List.ext_getElem? fun j => ?_
  rw [List.getElem?_set]
  split
  · next hij =>
    subst hij
    have hlt := (List.getElem?_eq_some_iff.mp hi).1
    rw [List.length_map, if_pos hlt, List.getElem?_map, hi]
    rfl
  · rfl

theorem Tabled.findings_discoverAll (h : m.Tabled seen) (stands : ∀ k ∈ m.packs, m.Stands t' k)
    {directories : List Files.Path} (hroots : ∀ directory ∈ directories, directory ∈ m.roots)
    (w : World ω γ) : (discoverAll t' directories (m, w)).1.packs.map ScriptPack.findings =
      m.packs.map ScriptPack.findings := by
  induction directories generalizing m w with
  | nil => rfl
  | cons directory directories ih =>
    obtain ⟨hfirst, hrest⟩ := List.forall_mem_cons.mp hroots
    obtain ⟨k, hk, rfl⟩ := List.mem_map.mp hfirst
    have hplan := m.plan_discoverPack t' k.root w
    have hsame := h.findings_discoverPack hk (stands k hk) w
    have hstands : ∀ k' ∈ (m.discoverPack t' k.root w).1.packs,
        (m.discoverPack t' k.root w).1.Stands t' k' := by
      intro k' hk'
      obtain ⟨k₀, hk₀, heq⟩ := Pack.exists_of_map_findings hsame hk'
      have hname : k₀.name = k'.name := congrArg Prod.fst heq
      have hroot : k₀.root = k'.root := congrArg (fun found => found.2.2.1) heq
      refine ⟨?_, ?_⟩
      · rw [packName_congr hplan, ← hname, ← hroot]
        exact (stands k₀ hk₀).name
      · rw [packIn_congr hplan, ← hroot, ← heq]
        exact (stands k₀ hk₀).findings
    have hroots' : (m.discoverPack t' k.root w).1.roots = m.roots := by
      have hmap := congrArg (List.map fun found => found.2.2.1) hsame
      rwa [List.map_map, List.map_map] at hmap
    refine Eq.trans ?_ hsame
    refine ih (h.congr hplan hsame) hstands (fun directory hdirectory => ?_) _
    rw [hroots']
    exact hrest directory hdirectory

/-- What a root holds is the same in two trees with the same tracked files. -/
theorem packIn_eq_of_tracks {roots : List Files.Path} (proper : t.Proper) (proper' : t'.Proper)
    (distinct : ∀ r ∈ roots, ∀ s ∈ roots, r.components = s.components → r = s)
    (nests : t.NestsAlike t' roots) (shows : t.EditsShow t')
    (tracks : ∀ p time, t.Tracks m.plan.engine.extension roots p time ↔
      t'.Tracks m.plan.engine.extension roots p time)
    {root : Files.Path} (hroot : root ∈ roots) : m.packIn t' root = m.packIn t root := by
  have hpaths := proper.filesWithExtension_eq_of_tracks proper' distinct nests tracks hroot
  have hfiles : (t'.filesWithExtension root m.plan.engine.extension).filterMap (fileAt? t' root) =
      (t.filesWithExtension root m.plan.engine.extension).filterMap (fileAt? t root) := by
    rw [filterMap_fileAt? t', filterMap_fileAt? t, ← hpaths]
    refine List.filterMap_congr fun path hpath => fileAt?_congr ?_
    obtain ⟨hmem, hthere⟩ := List.mem_filter.mp hpath
    exact proper.read_eq_of_tracks proper' distinct nests shows tracks hroot hmem hthere
  rw [packIn, packIn, hfiles]

end

/-- **What is loaded is watched, and a silent scan is safe.** However a host has used a manager, if
every pack was last looked for in one file tree, then a watch on the roots of the packs that starts
with this tree tracks the files of all units. If a later scan reports no changes, then looking for
the packs below these roots again finds what was found before, provided that edits show, and that
roots below other roots are still met, as directories or not, as they were. -/
theorem watch_covers_packs {r : Runner ω γ} {plan : Plan ω γ κ} {d : Nat}
    {calls : List (HostCall ω γ)} {m : Manager ω γ κ} {w₀ w : World ω γ} {t : Files.Tree}
    (h : HostCall.performAll r calls (create plan d) w₀ = some (m, w))
    (found : m.FoundIn (HostCall.visitsAll r calls (create plan d) w₀ []) t) (interval : Nat) :
    let watch := (Files.Watch.start t m.roots plan.engine.extension interval).1
    (∀ k ∈ m.packs, ∀ u ∈ k.units, (watch.times.get? u.file.path).isSome = true) ∧
    ∀ t' now, t.Proper → t'.Proper → t.EditsShow t' → t.NestsAlike t' m.roots →
      (watch.scan t' now).1.hasChanges = false →
      ∀ directories w', (∀ directory ∈ directories, directory ∈ m.roots) →
        (discoverAll t' directories (m, w')).1.packs.map ScriptPack.findings =
          m.packs.map ScriptPack.findings := by
  intro watch
  have htabled : m.Tabled _ := (Tabled.of_packs_eq_nil rfl).performAll h
  have hplan : m.plan = plan := HostCall.plan_performAll h
  have hknows : watch.Knows t := Files.Watch.knows_start t m.roots plan.engine.extension interval
  refine ⟨fun k hk u hu => ?_,
    fun t' now proper proper' shows nests hsilent directories w' hroots =>
    htabled.findings_discoverAll (fun k hk => ?_) hroots w'⟩
  · have hfile : u.file ∈ (m.packIn t k.root).units.map ScriptUnit.file := by
      have hunits : (m.packIn t k.root).units.map ScriptUnit.file = k.units.map ScriptUnit.file :=
        congrArg (fun found => found.2.2.2) (htabled.found found hk).findings
      rw [hunits]
      exact List.mem_map_of_mem hu
    obtain ⟨hmem, hthere⟩ := mem_files_packIn hfile
    rw [hplan] at hmem
    obtain ⟨time, htime⟩ := Files.Tree.exists_modified_of_contains hthere
    have hget : watch.times.get? u.file.path = some time :=
      hknows.get?_eq_some_iff.mpr
        ⟨k.root, List.mem_map_of_mem hk, u.file.path, hmem, rfl, htime⟩
    rw [hget]
    rfl
  · have hstands := htabled.found found hk
    have htracks := (hknows.compares_scan t' now).hasChanges.mp hsilent
    have hpack : m.packIn t' k.root = m.packIn t k.root := by
      refine packIn_eq_of_tracks proper proper' (htabled.roots_distinct found) nests shows ?_
        (List.mem_map_of_mem hk)
      rw [hplan]
      exact htracks
    exact ⟨hstands.name, by rw [hpack]; exact hstands.findings⟩

/-! ## A small host with a root below a root -/

namespace Sample

def nest (more : List (String × Files.Node)) : Files.Tree :=
  ⟨.directory (("a", .directory [("b", .directory [("x.word", .file "listen".toUTF8 1)])]) :: more),
    [], 0⟩

def moved : Files.Tree :=
  ⟨.directory [("a", .directory [("b", .link ⟨"../c"⟩)]),
    ("c", .directory [("x.word", .file "listen".toUTF8 1)])], [], 0⟩

def nestPlan : Plan Unit Empty (Table Global) :=
  { plan with directory := ⟨"a"⟩, extra := [⟨"a/b"⟩] }

theorem components_nest : Files.Path.components ⟨"a"⟩ = [.normal "a"] ∧
    Files.Path.components ⟨"a/b"⟩ = [.normal "a", .normal "b"] ∧
    Files.Path.components ⟨"a/b/x.word"⟩ = [.normal "a", .normal "b", .normal "x.word"] ∧
    Files.Path.components ⟨"../c"⟩ = [.parent, .normal "c"] := by decide

theorem extensions_nest : Files.Path.extension? ⟨"a/b"⟩ = none ∧
    Files.Path.extension? ⟨"a/b/x.word"⟩ = some "word" := by decide

section

variable (more : List (String × Files.Node)) (last : Bool)

theorem locate_nest : (nest more).locate last ⟨"a"⟩ = .ok (["a"],
    some (.directory [("b", .directory [("x.word", .file "listen".toUTF8 1)])])) := by
  simp [Files.Tree.locate, Files.Tree.follow, Files.Tree.wantsDirectory, Files.Tree.startOf,
    Files.Node.at?, Table.get?, nest, components_nest]

theorem locate_nest_inner : (nest more).locate last ⟨"a/b"⟩ = .ok (["a", "b"],
    some (.directory [("x.word", .file "listen".toUTF8 1)])) := by
  simp [Files.Tree.locate, Files.Tree.follow, Files.Tree.wantsDirectory, Files.Tree.startOf,
    Files.Node.at?, Files.Node.child?, Files.Node.isDirectory, Table.get?, nest, components_nest]

theorem find_nest : (nest more).find ⟨"a/b/x.word"⟩ = .ok (.file "listen".toUTF8 1) := by
  simp [Files.Tree.find, Files.Tree.locate, Files.Tree.follow, Files.Tree.wantsDirectory,
    Files.Tree.startOf, Files.Node.at?, Files.Node.child?, Files.Node.isDirectory, Table.get?, nest,
    components_nest]

theorem walk_nest : (nest more).walk ⟨"a"⟩ =
    [(⟨"a"⟩, .directory [("b", .directory [("x.word", .file "listen".toUTF8 1)])]),
      (⟨"a/b"⟩, .directory [("x.word", .file "listen".toUTF8 1)]),
      (⟨"a/b/x.word"⟩, .file "listen".toUTF8 1)] := by
  simp only [Files.Tree.walk, locate_nest]
  rfl

theorem walk_nest_inner : (nest more).walk ⟨"a/b"⟩ =
    [(⟨"a/b"⟩, .directory [("x.word", .file "listen".toUTF8 1)]),
      (⟨"a/b/x.word"⟩, .file "listen".toUTF8 1)] := by
  simp only [Files.Tree.walk, locate_nest_inner]
  rfl

theorem contains_nest : (nest more).contains ⟨"a"⟩ = true ∧
    (nest more).contains ⟨"a/b"⟩ = true := by
  rw [Files.Tree.contains, Files.Tree.contains, Files.Tree.find, Files.Tree.find, locate_nest,
    locate_nest_inner]
  exact ⟨rfl, rfl⟩

theorem files_nest : (nest more).filesWithExtension ⟨"a"⟩ "word" = [⟨"a/b/x.word"⟩] ∧
    (nest more).filesWithExtension ⟨"a/b"⟩ "word" = [⟨"a/b/x.word"⟩] := by
  rw [Files.Tree.filesWithExtension, Files.Tree.filesWithExtension, if_pos (contains_nest more).1,
    if_pos (contains_nest more).2, walk_nest, walk_nest_inner]
  simp [Files.Node.isDirectory, extensions_nest]

theorem snapshot_nest : (Files.Watch.snapshot (nest more) "word" [⟨"a"⟩, ⟨"a/b"⟩]).1 =
    [(⟨"a/b/x.word"⟩, 1)] := by
  have horder : Files.Path.order ⟨"a/b/x.word"⟩ ⟨"a/b/x.word"⟩ = .eq :=
    Files.Path.order_eq_eq_iff.mpr rfl
  simp [Files.Watch.snapshot, files_nest, Files.Watch.timesOf, Files.Tree.modified, find_nest,
    Files.Times.insert, horder]

end

theorem find_moved : moved.find ⟨"a"⟩ = .ok (.directory [("b", .link ⟨"../c"⟩)]) ∧
    moved.find ⟨"a/b"⟩ = .ok (.directory [("x.word", .file "listen".toUTF8 1)]) ∧
    moved.find ⟨"a/b/x.word"⟩ = .ok (.file "listen".toUTF8 1) := by
  simp [Files.Tree.find, Files.Tree.locate, Files.Tree.follow, Files.Tree.wantsDirectory,
    Files.Tree.startOf, Files.Tree.linkLimit, Files.Node.at?, Files.Node.child?,
    Files.Node.isDirectory, Table.get?, moved, components_nest]

theorem locate_moved : moved.locate false ⟨"a"⟩ =
      .ok (["a"], some (.directory [("b", .link ⟨"../c"⟩)])) ∧
    moved.locate false ⟨"a/b"⟩ = .ok (["a", "b"], some (.link ⟨"../c"⟩)) := by
  simp [Files.Tree.locate, Files.Tree.follow, Files.Tree.wantsDirectory, List.isPrefixOf,
    Files.Tree.startOf, Files.Node.at?, Files.Node.child?, Files.Node.isDirectory, Table.get?,
    moved, components_nest]

theorem files_moved : moved.filesWithExtension ⟨"a"⟩ "word" = [] ∧
    moved.filesWithExtension ⟨"a/b"⟩ "word" = [⟨"a/b/x.word"⟩] := by
  have hwalk : moved.walk ⟨"a"⟩ =
      [(⟨"a"⟩, .directory [("b", .link ⟨"../c"⟩)]), (⟨"a/b"⟩, .link ⟨"../c"⟩)] := by
    rw [Files.Tree.walk_eq, locate_moved.1, find_moved.1]
    rfl
  have hwalk' : moved.walk ⟨"a/b"⟩ =
      [(⟨"a/b"⟩, .link ⟨"../c"⟩), (⟨"a/b/x.word"⟩, .file "listen".toUTF8 1)] := by
    rw [Files.Tree.walk_eq, locate_moved.2, find_moved.2.1]
    rfl
  simp [Files.Tree.filesWithExtension, Files.Tree.contains, find_moved, hwalk, hwalk',
    Files.Node.isDirectory, extensions_nest]

theorem snapshot_moved : (Files.Watch.snapshot moved "word" [⟨"a"⟩, ⟨"a/b"⟩]).1 =
    [(⟨"a/b/x.word"⟩, 1)] := by
  simp [Files.Watch.snapshot, files_moved, Files.Watch.timesOf, Files.Tree.modified, find_moved,
    Files.Times.insert]

theorem proper_nest : (nest []).Proper ∧ (nest [("c", .file "listen".toUTF8 1)]).Proper ∧
    moved.Proper := by
  have hfile : ∀ e ∈ [("x.word", Files.Node.file "listen".toUTF8 1)], e.2.Proper := by
    intro e he
    cases List.mem_singleton.mp he
    exact .file _ _
  have hinner : (Files.Node.directory [("x.word", .file "listen".toUTF8 1)]).Proper :=
    .directory (by decide) (by decide) hfile
  have hb : (Files.Node.directory
      [("b", .directory [("x.word", .file "listen".toUTF8 1)])]).Proper := by
    refine .directory (by decide) (by decide) fun e he => ?_
    cases List.mem_singleton.mp he
    exact hinner
  refine ⟨?_, ?_, ?_⟩
  · refine .directory (by decide) (by decide) fun e he => ?_
    cases List.mem_singleton.mp he
    exact hb
  · refine .directory (by decide) (by decide) fun e he => ?_
    rcases List.mem_pair.mp he with rfl | rfl
    · exact hb
    · exact .file _ _
  · refine .directory (by decide) (by decide) fun e he => ?_
    rcases List.mem_pair.mp he with rfl | rfl
    · refine .directory (by decide) (by decide) fun e he => ?_
      cases List.mem_singleton.mp he
      exact .link _
    · exact hinner

theorem file_mem_walk {t : Files.Tree} (proper : t.Proper) {place : List String} {text : ByteArray}
    {a : Int} (h : t.root.at? place = some (.file text a)) :
    Files.Node.file text a ∈ (t.root.walk ⟨"."⟩).map Prod.snd :=
  List.mem_map.mpr ⟨_, (Files.Node.Proper.mem_walk proper).mpr ⟨place, h, rfl⟩, rfl⟩

theorem editsShow_nest : (nest []).EditsShow moved ∧
    (nest []).EditsShow (nest [("c", .file "listen".toUTF8 1)]) := by
  obtain ⟨proper, proper', properMoved⟩ := proper_nest
  have files : ∀ place text a, (nest []).root.at? place = some (.file text a) →
      text = "listen".toUTF8 ∧ a = 1 := fun place text a h => by
    simpa [nest, Files.Node.walk, Files.Node.walkEntries] using file_mem_walk proper h
  have files' : ∀ place text a,
      (nest [("c", .file "listen".toUTF8 1)]).root.at? place = some (.file text a) →
      text = "listen".toUTF8 ∧ a = 1 := fun place text a h => by
    simpa [nest, Files.Node.walk, Files.Node.walkEntries] using file_mem_walk proper' h
  have filesMoved : ∀ place text a, moved.root.at? place = some (.file text a) →
      text = "listen".toUTF8 ∧ a = 1 := fun place text a h => by
    simpa [moved, Files.Node.walk, Files.Node.walkEntries] using file_mem_walk properMoved h
  exact ⟨Files.Tree.editsShow_of_files one_ne_zero files filesMoved,
    Files.Tree.editsShow_of_files one_ne_zero files files'⟩

theorem packName_nest (m : Manager Unit Empty (Table Global)) :
    m.packName ⟨"a"⟩ = "a" ∧ m.packName ⟨"a/b"⟩ = "b" := by
  rw [packName, packName, show Files.Path.fileName? ⟨"a"⟩ = some "a" by decide,
    show Files.Path.fileName? ⟨"a/b"⟩ = some "b" by decide]
  exact ⟨rfl, rfl⟩

theorem seed_nest (w : World Unit Empty) : (create nestPlan 0).seed (nest []) w = (nest [], w) := by
  rw [seed, show (create nestPlan 0).plan.directory = ⟨"a"⟩ from rfl, if_pos (contains_nest []).1]

def nested : Manager Unit Empty (Table Global) := ((create nestPlan 0).discover (nest []) world).1

theorem packs_nested : nested.packs = [(create nestPlan 0).packIn (nest []) ⟨"a"⟩,
    (create nestPlan 0).packIn (nest []) ⟨"a/b"⟩] := by
  obtain ⟨⟨m, w⟩, hfirst⟩ : ∃ s,
      (create nestPlan 0).discoverPack (nest []) ⟨"a"⟩ world = s := ⟨_, rfl⟩
  have hplan : m.plan = nestPlan := by
    have hplan := (create nestPlan 0).plan_discoverPack (nest []) ⟨"a"⟩ world
    rwa [hfirst] at hplan
  have hpacks : m.packs = [(create nestPlan 0).packIn (nest []) ⟨"a"⟩] := by
    have hpacks := Tabled.packs_discoverPack_of_not_mem (m := create nestPlan 0) (nest []) world
      (show ((create nestPlan 0).settingsOf ((create nestPlan 0).packName ⟨"a"⟩)).enabled = true
        from rfl)
      List.not_mem_nil
    rwa [hfirst] at hpacks
  have hon : (m.settingsOf (m.packName ⟨"a/b"⟩)).enabled = true := by
    rw [settingsOf, hplan]
    rfl
  have hnew : m.packName ⟨"a/b"⟩ ∉ m.packs.map ScriptPack.name := by
    simp [hpacks, packName_nest, name_packIn]
  have hsecond := Tabled.packs_discoverPack_of_not_mem (nest []) w hon hnew
  have hnested : nested.packs = (m.discoverPack (nest []) ⟨"a/b"⟩ w).1.packs := by
    rw [nested, discover, seed_nest]
    show (discoverAll (nest []) [⟨"a/b"⟩]
      ((create nestPlan 0).discoverPack (nest []) ⟨"a"⟩ world)).1.packs = _
    rw [hfirst]
    rfl
  rw [hnested, hsecond, hpacks, packIn_congr (m := create nestPlan 0) hplan]
  rfl

theorem roots_nested : nested.roots = [⟨"a"⟩, ⟨"a/b"⟩] := by
  rw [roots, packs_nested, List.map_cons, List.map_cons, root_packIn, root_packIn]
  rfl

theorem performAll_nested : ∃ w,
    HostCall.performAll .plain [.discover (nest [])] (create nestPlan 0) world = some (nested, w) :=
  ⟨_, rfl⟩

theorem foundIn_nested : nested.FoundIn (HostCall.visitsAll .plain [.discover (nest [])]
    (create nestPlan 0) world []) (nest []) := by
  intro k _ v hv
  have hmem : v ∈ (create nestPlan 0).rounds (nest []) world := mem_of_lastVisit?_eq_some hv
  rw [rounds, seed_nest] at hmem
  obtain ⟨directory, -, rfl⟩ := List.mem_map.mp hmem
  rfl

theorem units_nested : (nested.pack? "a").map (fun k => k.units.map ScriptUnit.location) =
    some ["b/x.word"] := by
  have hread : ScriptFile.read (nest []) ⟨"a"⟩ ⟨"a/b/x.word"⟩ =
      .ok (some ⟨"b/x.word", ⟨"a/b/x.word"⟩, 0, "listen"⟩) := by
    have hlocation : locationOf ⟨"a"⟩ ⟨"a/b/x.word"⟩ = .ok "b/x.word" := by rfl
    have htext : String.fromUTF8? "listen".toUTF8 = some "listen" := rfl
    rw [ScriptFile.read, hlocation, Files.Tree.read, find_nest]
    simp only [htext]
    rfl
  have hfile : fileAt? (nest []) ⟨"a"⟩ ⟨"a/b/x.word"⟩ =
      some ⟨"b/x.word", ⟨"a/b/x.word"⟩, 0, "listen"⟩ := by
    rw [fileAt?, hread]
  have hfiles := (files_nest []).1
  have hpack : (create nestPlan 0).packIn (nest []) ⟨"a"⟩ = pushFiles (.empty "a" "" ⟨"a"⟩)
      [⟨"b/x.word", ⟨"a/b/x.word"⟩, 0, "listen"⟩] := by
    rw [packIn, (packName_nest _).1]
    show pushFiles _ (((nest []).filesWithExtension ⟨"a"⟩ "word").filterMap _) = _
    rw [hfiles, List.filterMap_cons_some hfile, List.filterMap_nil]
    rfl
  rw [pack?, packs_nested, hpack]
  rfl

end Sample

/-- **A silent scan can miss a lost unit**, where a root is below a root: after a directory below
the first root, the second root, was moved away and a link has taken its place, its script is still
met below the second root, but no longer below the first one. -/
theorem silent_scan_loses_unit :
    ∃ m w, HostCall.performAll .plain [.discover (Sample.nest [])] (create Sample.nestPlan 0)
        Sample.world = some (m, w) ∧
      m.FoundIn (HostCall.visitsAll .plain [.discover (Sample.nest [])] (create Sample.nestPlan 0)
        Sample.world []) (Sample.nest []) ∧
      (Sample.nest []).Proper ∧ Sample.moved.Proper ∧ (Sample.nest []).EditsShow Sample.moved ∧
      ((Files.Watch.start (Sample.nest []) m.roots "word" 0).1.scan Sample.moved 0).1.hasChanges =
        false ∧
      ((m.pack? "a").map fun k => k.units.map ScriptUnit.location) = some ["b/x.word"] ∧
      ((m.discoverPack Sample.moved ⟨"a"⟩ w).1.pack? "a").map (fun k =>
        k.units.map ScriptUnit.location) = some [] := by
  obtain ⟨w, hcalls⟩ := Sample.performAll_nested
  obtain ⟨proper, -, properMoved⟩ := Sample.proper_nest
  refine ⟨Sample.nested, w, hcalls, Sample.foundIn_nested, proper, properMoved,
    Sample.editsShow_nest.1, ?_, Sample.units_nested, ?_⟩
  · rw [Sample.roots_nested]
    simp only [Files.Watch.scan, Files.Watch.start, Sample.snapshot_nest, Sample.snapshot_moved]
    rfl
  · have htabled : Sample.nested.Tabled _ := (Tabled.of_packs_eq_nil rfl).performAll hcalls
    have hplan : Sample.nested.plan = Sample.nestPlan := HostCall.plan_performAll hcalls
    have hfirst : Sample.nested.packs[0]? =
        some ((create Sample.nestPlan 0).packIn (Sample.nest []) ⟨"a"⟩) := by
      rw [Sample.packs_nested]
      rfl
    have hname : ((create Sample.nestPlan 0).packIn (Sample.nest []) ⟨"a"⟩).name =
        Sample.nested.packName ⟨"a"⟩ := by
      rw [name_packIn, (Sample.packName_nest _).1, (Sample.packName_nest _).1]
    have hempty : Sample.nested.packIn Sample.moved ⟨"a"⟩ = .empty "a" "" ⟨"a"⟩ := by
      rw [packIn, (Sample.packName_nest _).1, settingsOf, hplan]
      show pushFiles _ ((Sample.moved.filesWithExtension ⟨"a"⟩ "word").filterMap _) = _
      rw [Sample.files_moved.1]
      rfl
    rw [pack?, htabled.packs_discoverPack_of_getElem? Sample.moved w hfirst hname, hempty,
      Sample.packs_nested]
    rfl

/-- A script that appears outside of the roots, one of which is below the other, changes no pack. -/
theorem watch_covers_packs_sample :
    ∃ m w, HostCall.performAll .plain [.discover (Sample.nest [])] (create Sample.nestPlan 0)
        Sample.world = some (m, w) ∧
      let edited := Sample.nest [("c", .file "listen".toUTF8 1)]
      ((Files.Watch.start (Sample.nest []) m.roots "word" 0).1.scan edited 0).1.hasChanges = false ∧
      (m.pack? "a").map (fun k => k.units.map ScriptUnit.location) = some ["b/x.word"] ∧
      (discoverAll edited [⟨"a"⟩, ⟨"a/b"⟩] (m, w)).1.packs.map ScriptPack.findings =
        m.packs.map ScriptPack.findings := by
  obtain ⟨w, hcalls⟩ := Sample.performAll_nested
  obtain ⟨proper, proper', -⟩ := Sample.proper_nest
  obtain ⟨-, hsafe⟩ := watch_covers_packs hcalls Sample.foundIn_nested 0
  have hsilent : ((Files.Watch.start (Sample.nest []) Sample.nested.roots "word" 0).1.scan
      (Sample.nest [("c", .file "listen".toUTF8 1)]) 0).1.hasChanges = false := by
    rw [Sample.roots_nested]
    simp only [Files.Watch.scan, Files.Watch.start, Sample.snapshot_nest]
    rfl
  have hnests : (Sample.nest []).NestsAlike (Sample.nest [("c", .file "listen".toUTF8 1)])
      Sample.nested.roots := by
    rw [Sample.roots_nested]
    intro r hr s _ _ directory
    rcases List.mem_pair.mp hr with rfl | rfl
    · rw [Files.Tree.Reaches, Files.Tree.Reaches, Sample.walk_nest, Sample.walk_nest]
    · rw [Files.Tree.Reaches, Files.Tree.Reaches, Sample.walk_nest_inner, Sample.walk_nest_inner]
  refine ⟨Sample.nested, w, hcalls, hsilent, Sample.units_nested, ?_⟩
  refine hsafe _ 0 proper proper' Sample.editsShow_nest.2 hnests hsilent _ w fun directory h => ?_
  rw [Sample.roots_nested]
  exact h

end Manager

end PackHost
