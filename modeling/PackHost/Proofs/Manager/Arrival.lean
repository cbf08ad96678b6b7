import PackHost.Proofs.Manager.Exact

/-!
# The order of arrival

Files are found in the order of their paths, which goes by components, and units run in an order of
their own. The second one depends only on which files are found: their locations are different, so
it does not show in which order they came (`order_of_arrival`).
-/

namespace PackHost.Manager

open Pack

variable {ω γ κ : Type}

/-- Files with different paths have different locations in a pack. -/
theorem nodup_locations_files {t : Files.Tree} {root : Files.Path} {paths : List Files.Path}
    (distinct : paths.Pairwise fun p q => p.same q = false) :
    (((paths.filterMap (fileAt? t root)).map ScriptUnit.ofFile).map ScriptUnit.location).Nodup := by
  rw [List.map_map, List.Nodup, List.pairwise_map, List.pairwise_filterMap]
  refine distinct.imp fun {p q} hne file hfile file' hfile' hlocation => ?_
  have hp := (ScriptFile.read_eq_ok_some (fileAt?_eq_some_iff.mp hfile)).2
  have hq := (ScriptFile.read_eq_ok_some (fileAt?_eq_some_iff.mp hfile')).2
  have hsame : file.location = file'.location := hlocation
  rw [← hsame] at hq
  have hcomponents := Files.Path.same_iff.mpr (Files.Path.components_eq_of_location hp hq)
  rw [hne] at hcomponents
  cases hcomponents

theorem letInAll_comm {t : Files.Tree} {root : Files.Path} {d : Nat} {k : ScriptPack κ}
    {w : World ω γ} {paths paths' : List Files.Path} (hempty : k.units = [])
    (distinct : paths.Pairwise fun p q => p.same q = false) (perm : paths'.Perm paths) :
    (letInAll t root d paths' (k, w)).1 = (letInAll t root d paths (k, w)).1 := by
  have hperm := (perm.filterMap (fileAt? t root)).map ScriptUnit.ofFile
  have hinOrder : InOrder k.units := by
    rw [hempty]
    exact List.Pairwise.nil
  have hunits := ScriptPack.units_pushAll_comm hinOrder hperm
    (by rw [hempty]; exact nodup_locations_files distinct)
  rw [letInAll_eq_pushFiles, letInAll_eq_pushFiles, pushFiles_eq_pushAll, pushFiles_eq_pushAll,
    ScriptPack.pushAll_eq, hunits, ← ScriptPack.pushAll_eq]

/-- **The order of units.** Whatever units are put into a new pack, in whatever order: the pack has
each of them as often as it was put in, sorted by descending priority and then by the bytes of their
locations, and units with the same priority and location are in the order in which they came. The
comparison that sorts them is a total preorder, and ties only where priority and location are the
same. If the locations are different, the same units in any other order make the same pack, and
a location finds exactly the unit that has it. Files with different paths have different locations,
so the order in which they are found never shows. -/
theorem order_of_arrival (name description : String) (root : Files.Path) (us : List ScriptUnit) :
    let new : ScriptPack κ := .empty name description root
    let units := (new.pushAll us).units
    units.Perm us ∧
    (units.Pairwise fun u v => v.file.priority < u.file.priority ∨
      u.file.priority = v.file.priority ∧ Text.bytes u.location ≤ Text.bytes v.location) ∧
    (∀ priority location, units.filter (ScriptUnit.hasKey priority location) =
      us.filter (ScriptUnit.hasKey priority location)) ∧
    Std.TransCmp ScriptUnit.order ∧
    (∀ u v : ScriptUnit, (u.order v).isLE = true ↔ v.file.priority < u.file.priority ∨
      u.file.priority = v.file.priority ∧ Text.bytes u.location ≤ Text.bytes v.location) ∧
    (∀ u v : ScriptUnit, u.order v = .eq ↔
      u.file.priority = v.file.priority ∧ u.location = v.location) ∧
    ((us.map ScriptUnit.location).Nodup →
      (∀ us', us'.Perm us → new.pushAll us' = new.pushAll us) ∧
      ∀ location u, (new.pushAll us).unit? location = some u ↔ u ∈ us ∧ u.location = location) ∧
    ∀ (t : Files.Tree) (d : Nat) (w : World ω γ) (paths paths' : List Files.Path),
      paths.Pairwise (fun p q => p.same q = false) → paths'.Perm paths →
        (letInAll t root d paths' (new, w)).1 = (letInAll t root d paths (new, w)).1 := by
  intro new units
  have hempty : InOrder new.units := List.Pairwise.nil
  have hperm : units.Perm us := new.perm_units_pushAll us
  refine ⟨hperm, ?_, fun priority location => ?_, inferInstance,
    fun u v => ScriptFile.isLE_order_iff.trans ScriptFile.before_iff_bytes,
    fun u v => ScriptFile.order_eq_eq_iff, fun distinct => ⟨fun us' hus' => ?_, ?_⟩,
    fun t d w paths paths' distinct perm => letInAll_comm rfl distinct perm⟩
  · exact (ScriptPack.inOrder_pushAll hempty us).imp ScriptFile.before_iff_bytes.mp
  · exact ScriptPack.filter_units_pushAll hempty us priority location
  · have hunits := ScriptPack.units_pushAll_comm hempty hus' distinct
    rw [ScriptPack.pushAll_eq, hunits, ← ScriptPack.pushAll_eq]
  · intro location u
    rw [ScriptPack.unit?_eq_some_iff ((hperm.map _).nodup_iff.mpr distinct), hperm.mem_iff]

/-! ## A directory and a file of nearly the same name -/

namespace Sample

/-- A tree in which the path `a/b.word` comes before `a.word`, but not its location. -/
def rows : Files.Tree :=
  ⟨.directory [("scripts", .directory [("a", .directory [("b.word", .file "listen".toUTF8 0)]),
    ("a.word", .file "listen".toUTF8 0), ("c.word", .file "// priority: 1".toUTF8 0)])], [], 0⟩

def rowPaths : List Files.Path :=
  [⟨"scripts/a/b.word"⟩, ⟨"scripts/a.word"⟩, ⟨"scripts/c.word"⟩]

def rowFiles : List ScriptFile :=
  [⟨"a/b.word", ⟨"scripts/a/b.word"⟩, 0, "listen"⟩, ⟨"a.word", ⟨"scripts/a.word"⟩, 0, "listen"⟩,
    ⟨"c.word", ⟨"scripts/c.word"⟩, 1, "// priority: 1"⟩]

theorem components_rows :
    Files.Path.components ⟨"scripts/a/b.word"⟩ =
      [.normal "scripts", .normal "a", .normal "b.word"] ∧
    Files.Path.components ⟨"scripts/a.word"⟩ = [.normal "scripts", .normal "a.word"] ∧
    Files.Path.components ⟨"scripts/c.word"⟩ = [.normal "scripts", .normal "c.word"] := by decide

theorem contents_rows : rows.read ⟨"scripts/a/b.word"⟩ = .ok "listen".toUTF8 ∧
    rows.read ⟨"scripts/a.word"⟩ = .ok "listen".toUTF8 ∧
    rows.read ⟨"scripts/c.word"⟩ = .ok "// priority: 1".toUTF8 := by
  simp [Files.Tree.read, Files.Tree.find, Files.Tree.locate, Files.Tree.follow,
    Files.Tree.wantsDirectory, Files.Tree.startOf, Files.Node.at?, Files.Node.child?,
    Files.Node.isDirectory, Table.get?, rows, components_rows]

theorem files_rows : rowPaths.filterMap (fileAt? rows ⟨"scripts"⟩) = rowFiles := by
  obtain ⟨hb, ha, hc⟩ := contents_rows
  have hlocation : ∀ name ∈ ["a/b.word", "a.word", "c.word"],
      locationOf ⟨"scripts"⟩ ⟨"scripts/" ++ name⟩ = .ok name := by decide
  have htext : ∀ text ∈ ["listen", "// priority: 1"],
      String.fromUTF8? text.toUTF8 = some text := by decide
  simp only [List.forall_mem_cons, String.reduceAppend] at hlocation htext
  have hread : ∀ name ∈ [("a/b.word", "listen", (0 : Int)), ("a.word", "listen", 0),
      ("c.word", "// priority: 1", 1)],
      ScriptFile.ofText name.1 ⟨"scripts/" ++ name.1⟩ name.2.1 =
        .ok (some ⟨name.1, ⟨"scripts/" ++ name.1⟩, name.2.2, name.2.1⟩) := by decide
  simp only [List.forall_mem_cons, String.reduceAppend] at hread
  simp only [rowPaths, List.filterMap_cons, fileAt?, ScriptFile.read, hlocation, ha, hb, hc, htext,
    hread, List.filterMap_nil, rowFiles]

end Sample

/-- The paths are in the order of their components, the units are in the order of their locations
behind the one with the higher priority, and any other order of the paths leads there, too. -/
theorem order_of_arrival_sample :
    Sample.rowPaths.Pairwise Files.Path.Before ∧
    ∀ paths, paths.Perm Sample.rowPaths → ∀ w : World Unit Empty,
      let k : ScriptPack (Table Global) := (letInAll Sample.rows ⟨"scripts"⟩ 0 paths
        (.empty "scripts" "" ⟨"scripts"⟩, w)).1
      k.units.map ScriptUnit.location = ["c.word", "a.word", "a/b.word"] ∧
      (k.unit? "a/b.word").map ScriptUnit.file =
        some ⟨"a/b.word", ⟨"scripts/a/b.word"⟩, 0, "listen"⟩ := by
  have hascending : Sample.rowPaths.Pairwise Files.Path.Before := by
    unfold Files.Path.Before
    decide
  have hdistinct : Sample.rowPaths.Pairwise fun p q => p.same q = false := by decide
  have hlocations :
      ((Sample.rowFiles.map ScriptUnit.ofFile).map ScriptUnit.location).Nodup := by decide
  refine ⟨hascending, fun paths hpaths w => ?_⟩
  obtain ⟨-, -, -, -, -, -, hunits, harrival⟩ := order_of_arrival (ω := Unit) (γ := Empty)
    (κ := Table Global) "scripts" "" ⟨"scripts"⟩ (Sample.rowFiles.map .ofFile)
  have hfound := ((hunits hlocations).2 "a/b.word" (.ofFile _)).mpr ⟨List.mem_cons_self, rfl⟩
  dsimp only
  rw [harrival Sample.rows 0 w Sample.rowPaths paths hdistinct hpaths, letInAll_eq_pushFiles,
    Sample.files_rows, pushFiles_eq_pushAll, hfound]
  exact ⟨by decide, rfl⟩

end PackHost.Manager
