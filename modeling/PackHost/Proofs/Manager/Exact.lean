import PackHost.Proofs.Files.Location
import PackHost.Proofs.Manager.Account
import PackHost.Proofs.Manager.Findings

/-!
# Discovery is exact

The units of a pack are the files that are met at or below its directory, have the extension of the
engine and can be read; every other file with the extension costs one line on the console and
nothing else. The main statement is `discoverPack_exact`.
-/

namespace PackHost

open Pack

variable {ω γ κ : Type}

/-! ## Several lines -/

namespace World

/-- The world after lines on the console of a desk, one after another. -/
def sayAll (w : World ω γ) (d : Nat) (lines : List Line) : World ω γ :=
  lines.foldl (fun w line => w.say d line.level line.text) w

theorem lines_sayAll {w : World ω γ} {d : Nat} (hd : d < w.desks.size) (lines : List Line) :
    ((w.sayAll d lines).desk d).lines = lines.reverse ++ (w.desk d).lines := by
  induction lines generalizing w with
  | nil => rfl
  | cons line lines ih =>
    have hfirst : ((w.say d line.level line.text).desk d).lines = line :: (w.desk d).lines := by
      rw [lines_say hd, if_pos rfl, List.singleton_append]
    have hrest := ih (w := w.say d line.level line.text) (by rw [size_say]; exact hd)
    rw [hfirst] at hrest
    rw [List.reverse_cons, List.append_assoc]
    exact hrest

end World

namespace Manager

/-! ## Reading one file -/

def lineAt? (t : Files.Tree) (root path : Files.Path) : Option Line :=
  match ScriptFile.read t root path with
  | .ok (some _) => none
  | .ok none => some ⟨.info, "Skipping ignored script " ++ path.text⟩
  | .error e => some ⟨.warn, "Failed to pre-load script file " ++ path.text ++ ": " ++ e.message⟩

section

variable {t : Files.Tree} {root path : Files.Path} {file : ScriptFile}

/-- A file becomes a unit, or there is a line about it. -/
theorem isSome_lineAt? (t : Files.Tree) (root path : Files.Path) :
    (lineAt? t root path).isSome = !(fileAt? t root path).isSome := by
  unfold lineAt? fileAt?
  rcases ScriptFile.read t root path with e | _ | file <;> rfl

/-- Letting in files says a line about each one that is left out, in their order. -/
theorem letInAll_eq_sayAll (t : Files.Tree) (root : Files.Path) (d : Nat)
    (paths : List Files.Path) (k : ScriptPack κ) (w : World ω γ) :
    (letInAll t root d paths (k, w)).2 = w.sayAll d (paths.filterMap (lineAt? t root)) := by
  induction paths generalizing k w with
  | nil => rfl
  | cons path paths ih =>
    rcases hread : ScriptFile.read t root path with e | _ | file
    · have hline : lineAt? t root path = some
          ⟨.warn, "Failed to pre-load script file " ++ path.text ++ ": " ++ e.message⟩ := by
        rw [lineAt?, hread]
      rw [List.filterMap_cons_some hline, letInAll, letIn, hread]
      exact ih k _
    · have hline : lineAt? t root path =
          some ⟨.info, "Skipping ignored script " ++ path.text⟩ := by
        rw [lineAt?, hread]
      rw [List.filterMap_cons_some hline, letInAll, letIn, hread]
      exact ih k _
    · have hnone : lineAt? t root path = none := by rw [lineAt?, hread]
      rw [List.filterMap_cons_none hnone, letInAll, letIn, hread]
      exact ih _ w

end

/-! ## The units of a pack -/

section

variable {m : Manager ω γ κ} {t : Files.Tree} {directory : Files.Path}

theorem perm_units_packIn (m : Manager ω γ κ) (t : Files.Tree) (directory : Files.Path) :
    (m.packIn t directory).units.Perm
      (((t.filesWithExtension directory m.plan.engine.extension).filterMap
        (fileAt? t directory)).map .ofFile) :=
  perm_units_pushFiles _ _

theorem mem_units_packIn {u : ScriptUnit} (h : u ∈ (m.packIn t directory).units) :
    u = .ofFile u.file ∧ u.file.path ∈ t.filesWithExtension directory m.plan.engine.extension ∧
      ScriptFile.read t directory u.file.path = .ok (some u.file) := by
  obtain ⟨file, hfile, rfl⟩ := List.mem_map.mp ((perm_units_packIn m t directory).mem_iff.mp h)
  obtain ⟨path, hpath, hread⟩ := List.mem_filterMap.mp hfile
  have hread := fileAt?_eq_some_iff.mp hread
  obtain ⟨rfl, -⟩ := ScriptFile.read_eq_ok_some hread
  exact ⟨rfl, hpath, hread⟩

/-- The paths of the units are the paths of the files that can be read. -/
theorem perm_paths_packIn (m : Manager ω γ κ) (t : Files.Tree) (directory : Files.Path) :
    ((m.packIn t directory).units.map fun u => u.file.path).Perm
      ((t.filesWithExtension directory m.plan.engine.extension).filter fun q =>
        (fileAt? t directory q).isSome) := by
  have hpath : ∀ q, ((fileAt? t directory q).map fun file => file.path) =
      Option.guard (fun q => (fileAt? t directory q).isSome) q := by
    intro q
    cases hfile : fileAt? t directory q with
    | none => simp [Option.guard, hfile]
    | some file =>
      have hpath := (ScriptFile.read_eq_ok_some (fileAt?_eq_some_iff.mp hfile)).1
      simp [Option.guard, hfile, hpath]
  have hperm := (perm_units_packIn m t directory).map fun u => u.file.path
  rw [List.map_map, List.map_filterMap] at hperm
  rw [← List.filterMap_eq_filter, ← funext hpath]
  exact hperm

/-- A unit was met behind some names, which its location joins. -/
theorem exists_meets_of_unit (proper : t.Proper) {u : ScriptUnit}
    (h : u ∈ (m.packIn t directory).units) : ∃ names n, t.Meets directory names n ∧
      n.isDirectory = false ∧ u.file.path = directory.below names ∧
      u.location = "/".intercalate names := by
  obtain ⟨-, hpath, hread⟩ := mem_units_packIn h
  obtain ⟨-, -, names, n, hmeets, hfile, hbelow⟩ := proper.mem_filesWithExtension.mp hpath
  refine ⟨names, n, hmeets, hfile, hbelow, ?_⟩
  have hlocation := (ScriptFile.read_eq_ok_some hread).2
  rw [hbelow, Files.Path.locationIn?_below directory (proper.isName hmeets)] at hlocation
  exact (Option.some.inj hlocation).symm

theorem nodup_locations_packIn (proper : t.Proper) :
    ((m.packIn t directory).units.map ScriptUnit.location).Nodup := by
  have hpaths : ((m.packIn t directory).units.map fun u => u.file.path).Nodup := by
    refine (perm_paths_packIn m t directory).nodup_iff.mpr (List.Nodup.filter _ ?_)
    refine (proper.ascending_filesWithExtension directory _).imp fun hbefore heq => ?_
    exact hbefore.components_ne (congrArg Files.Path.components heq)
  refine List.pairwise_map.mpr ((List.pairwise_map.mp hpaths).imp_of_mem ?_)
  intro u v hu hv hne hsame
  obtain ⟨names, n, hmeets, -, hpath, hlocation⟩ := exists_meets_of_unit proper hu
  obtain ⟨names', n', hmeets', -, hpath', hlocation'⟩ := exists_meets_of_unit proper hv
  rw [hlocation, hlocation'] at hsame
  have hnames := Files.Path.text_names_injective (proper.isName hmeets) (proper.isName hmeets') hsame
  exact hne (by rw [hpath, hpath', hnames])

theorem inOrder_packIn (m : Manager ω γ κ) (t : Files.Tree) (directory : Files.Path) :
    InOrder (m.packIn t directory).units := by
  rw [packIn, pushFiles_eq_pushAll]
  exact ScriptPack.inOrder_pushAll (k := .empty _ _ _) List.Pairwise.nil _

end

/-- **Discovery is exact.** Let the paths be those of all entries at and below a directory that are
no directories and have the extension of the engine, in their order; links below the directory are
not followed, and if the path of the directory leads nowhere, there is no entry. After a look into
the directory the pack of its name has one unit for each of these paths that can be read and does
not ask to be left out, and no others. Every unit holds the file as it was read, at the location
that joins the names on the way to it, no location occurs twice, and the units are in the order in
which they run. For every other path there is one line on the console, in the order of the paths,
and nothing else happens. -/
theorem discoverPack_exact {m : Manager ω γ κ} {t : Files.Tree} (proper : t.Proper)
    {directory : Files.Path} (enabled : (m.settingsOf (m.packName directory)).enabled = true)
    (w : World ω γ) :
    ∃ paths : List Files.Path,
      (∀ q, q ∈ paths ↔ t.contains directory = true ∧
        q.extension? = some m.plan.engine.extension ∧
          ∃ names n, t.Meets directory names n ∧ n.isDirectory = false ∧
            q = directory.below names) ∧
      paths.Pairwise Files.Path.Before ∧
      ∃ k, (m.discoverPack t directory w).1.pack? (m.packName directory) = some k ∧
        (m.discoverPack t directory w).1 = { m with packs := replacePack k m.packs } ∧
        k.name = m.packName directory ∧ k.root = directory ∧
        (k.units.map fun u => u.file.path).Perm
          (paths.filter fun q => (fileAt? t directory q).isSome) ∧
        (∀ u ∈ k.units, u = .ofFile u.file ∧
          ScriptFile.read t directory u.file.path = .ok (some u.file) ∧
          ∃ names n, t.Meets directory names n ∧ u.file.path = directory.below names ∧
            u.location = "/".intercalate names) ∧
        (k.units.map ScriptUnit.location).Nodup ∧ InOrder k.units ∧
        (∀ q ∈ paths, (lineAt? t directory q).isSome = !(fileAt? t directory q).isSome) ∧
        (m.discoverPack t directory w).2 =
          w.sayAll m.desk (paths.filterMap (lineAt? t directory)) ∧
        (m.desk < w.desks.size → ((m.discoverPack t directory w).2.desk m.desk).lines =
          (paths.filterMap (lineAt? t directory)).reverse ++ (w.desk m.desk).lines) := by
  refine ⟨t.filesWithExtension directory m.plan.engine.extension,
    fun q => proper.mem_filesWithExtension, proper.ascending_filesWithExtension _ _, ?_⟩
  have hmanager := m.discoverPack_of_enabled t directory w enabled
  have hworld : (m.discoverPack t directory w).2 = w.sayAll m.desk
      ((t.filesWithExtension directory m.plan.engine.extension).filterMap
        (lineAt? t directory)) := by
    simp only [discoverPack, if_pos enabled, letInAll_eq_sayAll]
  refine ⟨m.packIn t directory, ?_, hmanager, name_packIn _ _ _, root_packIn _ _ _,
    perm_paths_packIn m t directory, fun u hu => ?_, nodup_locations_packIn proper,
    inOrder_packIn m t directory, fun q _ => isSome_lineAt? t directory q, hworld, fun hdesk => ?_⟩
  · rw [hmanager, pack?, ← name_packIn m t directory]
    exact find?_replacePack
  · obtain ⟨hfresh, -, hread⟩ := mem_units_packIn hu
    obtain ⟨names, n, hmeets, -, hpath, hlocation⟩ := exists_meets_of_unit proper hu
    exact ⟨hfresh, hread, names, n, hmeets, hpath, hlocation⟩
  · rw [hworld, World.lines_sayAll hdesk]


/-! ## A small directory -/

namespace Sample

/-- A tree with a directory in which all names have the same extension: a file with a directive that
makes no sense, a directory, a script, a link that leads nowhere, and a file that asks to be left
out. -/
def assorted : Files.Tree :=
  ⟨.directory [("scripts", .directory [("bad.word", .file "// priority: high".toUTF8 0),
    ("dir.word", .directory []), ("kept.word", .file "listen".toUTF8 0),
    ("lost.word", .link ⟨"gone"⟩), ("skipped.word", .file "// ignored: true".toUTF8 0)])], [], 0⟩

theorem proper_assorted : assorted.Proper := by
  refine .directory (by decide) (by decide) fun e he => ?_
  cases List.mem_singleton.mp he
  refine .directory (by decide) (by decide) fun e he => ?_
  simp only [List.mem_cons, List.not_mem_nil, or_false] at he
  rcases he with rfl | rfl | rfl | rfl | rfl
  · exact .file _ _
  · exact .directory List.nodup_nil (List.forall_mem_nil _) (List.forall_mem_nil _)
  · exact .file _ _
  · exact .link _
  · exact .file _ _

theorem components_assorted : Files.Path.components ⟨"scripts"⟩ = [.normal "scripts"] ∧
    Files.Path.components ⟨"gone"⟩ = [.normal "gone"] ∧
    ∀ name ∈ ["bad.word", "kept.word", "lost.word", "skipped.word"],
      Files.Path.components ⟨"scripts/" ++ name⟩ = [.normal "scripts", .normal name] := by
  decide

theorem files_assorted : assorted.filesWithExtension ⟨"scripts"⟩ "word" =
    [⟨"scripts/bad.word"⟩, ⟨"scripts/kept.word"⟩, ⟨"scripts/lost.word"⟩,
      ⟨"scripts/skipped.word"⟩] := by
  have hlocate : ∀ last, assorted.locate last ⟨"scripts"⟩ = .ok (["scripts"],
      some (.directory [("bad.word", .file "// priority: high".toUTF8 0),
        ("dir.word", .directory []), ("kept.word", .file "listen".toUTF8 0),
        ("lost.word", .link ⟨"gone"⟩),
        ("skipped.word", .file "// ignored: true".toUTF8 0)])) := by
    simp [Files.Tree.locate, Files.Tree.follow, Files.Tree.wantsDirectory, Files.Tree.startOf,
      Files.Node.at?, Table.get?, assorted, components_assorted]
  have hwalk : assorted.walk ⟨"scripts"⟩ = [
      (⟨"scripts"⟩, .directory [("bad.word", .file "// priority: high".toUTF8 0),
        ("dir.word", .directory []), ("kept.word", .file "listen".toUTF8 0),
        ("lost.word", .link ⟨"gone"⟩), ("skipped.word", .file "// ignored: true".toUTF8 0)]),
      (⟨"scripts/bad.word"⟩, .file "// priority: high".toUTF8 0),
      (⟨"scripts/dir.word"⟩, .directory []),
      (⟨"scripts/kept.word"⟩, .file "listen".toUTF8 0),
      (⟨"scripts/lost.word"⟩, .link ⟨"gone"⟩),
      (⟨"scripts/skipped.word"⟩, .file "// ignored: true".toUTF8 0)] := by
    simp only [Files.Tree.walk, hlocate]
    rfl
  have hcontains : assorted.contains ⟨"scripts"⟩ = true := by
    rw [Files.Tree.contains, Files.Tree.find, hlocate]
  have hextensions : ∀ path ∈ ["scripts/bad.word", "scripts/kept.word", "scripts/lost.word",
      "scripts/skipped.word"], Files.Path.extension? ⟨path⟩ = some "word" := by decide
  simp only [List.forall_mem_cons] at hextensions
  rw [Files.Tree.filesWithExtension, if_pos hcontains, hwalk]
  simp only [List.filter_cons, Files.Node.isDirectory, hextensions]
  refine List.mergeSort_of_pairwise ?_
  decide

theorem contents_assorted :
    assorted.read ⟨"scripts/bad.word"⟩ = .ok "// priority: high".toUTF8 ∧
    assorted.read ⟨"scripts/kept.word"⟩ = .ok "listen".toUTF8 ∧
    assorted.read ⟨"scripts/lost.word"⟩ = .error .notFound ∧
    assorted.read ⟨"scripts/skipped.word"⟩ = .ok "// ignored: true".toUTF8 := by
  obtain ⟨-, hgone, hcomponents⟩ := components_assorted
  simp only [List.forall_mem_cons, String.reduceAppend] at hcomponents
  simp [Files.Tree.read, Files.Tree.find, Files.Tree.locate, Files.Tree.follow,
    Files.Tree.wantsDirectory, Files.Tree.startOf, Files.Tree.linkLimit, Files.Node.at?,
    Files.Node.child?, Files.Node.isDirectory, Table.get?, assorted, hcomponents, hgone]

theorem read_assorted :
    ScriptFile.read assorted ⟨"scripts"⟩ ⟨"scripts/bad.word"⟩ =
      .error (.misread "bad.word" ⟨1, "priority", "high"⟩) ∧
    ScriptFile.read assorted ⟨"scripts"⟩ ⟨"scripts/kept.word"⟩ =
      .ok (some ⟨"kept.word", ⟨"scripts/kept.word"⟩, 0, "listen"⟩) ∧
    ScriptFile.read assorted ⟨"scripts"⟩ ⟨"scripts/lost.word"⟩ =
      .error (.trouble "lost.word" .notFound) ∧
    ScriptFile.read assorted ⟨"scripts"⟩ ⟨"scripts/skipped.word"⟩ = .ok none := by
  obtain ⟨hbad, hkept, hlost, hskipped⟩ := contents_assorted
  have hlocation : ∀ name ∈ ["bad.word", "kept.word", "lost.word", "skipped.word"],
      locationOf ⟨"scripts"⟩ ⟨"scripts/" ++ name⟩ = .ok name := by decide
  have htext : ∀ text ∈ ["// priority: high", "listen", "// ignored: true"],
      String.fromUTF8? text.toUTF8 = some text := by decide
  simp only [List.forall_mem_cons, String.reduceAppend] at hlocation htext
  simp only [ScriptFile.read, hlocation, hbad, hkept, hlost, hskipped, htext]
  decide

end Sample

/-- In a directory whose entries all have the extension, one is a script, one a directory, and there
is a line about each of the other three. -/
theorem discoverPack_exact_sample :
    ∃ k, ((create Sample.plan 0).discoverPack Sample.assorted ⟨"scripts"⟩ Sample.world).1.packs =
        [k] ∧ k.units = [.ofFile ⟨"kept.word", ⟨"scripts/kept.word"⟩, 0, "listen"⟩] ∧
      (((create Sample.plan 0).discoverPack Sample.assorted ⟨"scripts"⟩ Sample.world).2.desk
        0).lines = [⟨.info, "Skipping ignored script scripts/skipped.word"⟩,
          ⟨.warn, "Failed to pre-load script file scripts/lost.word: " ++
            "failed to read lost.word: No such file or directory (os error 2)"⟩,
          ⟨.warn, "Failed to pre-load script file scripts/bad.word: " ++
            "bad.word:1: invalid value 'high' for directive 'priority'"⟩] := by
  have proper := Sample.proper_assorted
  have enabled : ((create Sample.plan 0).settingsOf
      ((create Sample.plan 0).packName ⟨"scripts"⟩)).enabled = true := rfl
  obtain ⟨paths, hmem, hascending, k, -, hmanager, -, -, hperm, hunits, -, -, -, -, hlines⟩ :=
    discoverPack_exact proper enabled Sample.world
  have hpaths : paths = Sample.assorted.filesWithExtension ⟨"scripts"⟩ "word" :=
    Files.Path.eq_of_before hascending (proper.ascending_filesWithExtension _ _) fun q =>
      (hmem q).trans proper.mem_filesWithExtension.symm
  rw [Sample.files_assorted] at hpaths
  obtain ⟨hbad, hkept, hlost, hskipped⟩ := Sample.read_assorted
  refine ⟨k, ?_, ?_, ?_⟩
  · rw [hmanager]
    rfl
  · rw [hpaths] at hperm
    simp only [List.filter_cons, fileAt?, hbad, hkept, hlost, hskipped] at hperm
    obtain ⟨u, hu⟩ : ∃ u, k.units = [u] := List.length_eq_one_iff.mp (by simpa using hperm.length_eq)
    have hpath : u.file.path = ⟨"scripts/kept.word"⟩ := by simpa [hu] using hperm
    obtain ⟨hfresh, hread, -⟩ := hunits u (by simp [hu])
    rw [hpath, hkept] at hread
    rw [hu, hfresh, ← Option.some.inj (Except.ok.inj hread)]
  · have hdesk : (create Sample.plan 0).desk < Sample.world.desks.size := by decide
    have hlines := hlines hdesk
    rw [hpaths] at hlines
    simp only [List.filterMap_cons, lineAt?, hbad, hkept, hlost, hskipped] at hlines
    exact hlines

end Manager

end PackHost
