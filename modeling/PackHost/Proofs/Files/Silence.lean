import PackHost.Proofs.Files.Walk
import PackHost.Proofs.Files.Watch

/-!
# What a silent scan leaves open

A watch knows which files are below its roots, but not below which of them a file was met. Where the
walks below the roots meet the other roots in the same way, the tracked files tell what is below
each root (`Tree.filesWithExtension_eq_of_tracks`).
-/

namespace PackHost.Files.Tree

variable {t t' : Tree} {p q r s : Path} {n : Node} {names above : List String}
  {extension : String} {roots : List Path}

/-- Where the second tree reads differently, the modification time is another one, or only one of
the trees has the path. -/
def EditsShow (t t' : Tree) : Prop :=
  ∀ p, t'.read p ≠ t.read p →
    t'.modified p ≠ t.modified p ∨ t.contains p = false ∨ t'.contains p = false

theorem exists_at?_of_find (h : t.find p = .ok n) : ∃ place, t.root.at? place = some n := by
  obtain ⟨-, -, place, hleads⟩ := find_iff_leadsTo.mp h
  exact ⟨place, hleads.at?⟩

/-- Edits show in trees whose files all hold the same text and have the same time, which is not that
of directories. -/
theorem editsShow_of_files {contents : ByteArray} {time : Int} (hne : time ≠ 0)
    (files : ∀ place text a, t.root.at? place = some (.file text a) → text = contents ∧ a = time)
    (files' : ∀ place text a,
      t'.root.at? place = some (.file text a) → text = contents ∧ a = time) :
    t.EditsShow t' := by
  intro p hread
  rcases hfind : t.find p with e | n
  · exact .inr (.inl (by rw [Tree.contains, hfind]))
  rcases hfind' : t'.find p with e | n'
  · exact .inr (.inr (by rw [Tree.contains, hfind']))
  obtain ⟨place, hplace⟩ := exists_at?_of_find hfind
  obtain ⟨place', hplace'⟩ := exists_at?_of_find hfind'
  rw [read, read, hfind, hfind'] at hread
  rw [modified, modified, hfind, hfind']
  -- two files hold the same text, and what is no file has another time than a file
  rcases n with ⟨text, a⟩ | entries | target <;> rcases n' with ⟨text', a'⟩ | entries' | target'
  · obtain ⟨rfl, rfl⟩ := files _ _ _ hplace
    obtain ⟨rfl, rfl⟩ := files' _ _ _ hplace'
    exact absurd rfl hread
  all_goals first
    | exact absurd rfl hread
    | exact .inl fun h => hne ((files _ _ _ hplace).2 ▸ (Except.ok.inj h).symm)
    | exact .inl fun h => hne ((files' _ _ _ hplace').2 ▸ Except.ok.inj h)

/-! ## Roots below roots -/

/-- The walk below the first path meets the second one, as a directory or as something else. -/
def Reaches (t : Tree) (r s : Path) (directory : Bool) : Prop :=
  ∃ e ∈ t.walk r, e.1.components = s.components ∧ e.2.isDirectory = directory

/-- The walks below the roots meet the other roots in both trees in the same way. -/
def NestsAlike (t t' : Tree) (roots : List Path) : Prop :=
  ∀ r ∈ roots, ∀ s ∈ roots, r ≠ s → ∀ directory, t.Reaches r s directory ↔ t'.Reaches r s directory

theorem Proper.components_below (h : t.Proper) (hmeets : t.Meets p names n) :
    (p.below names).components = p.components ++ names.map .normal :=
  Path.components_below p (h.isName hmeets)

theorem Proper.reaches_iff (h : t.Proper) {directory : Bool} : t.Reaches r s directory ↔
    ∃ names n, t.Meets r names n ∧ s.components = r.components ++ names.map .normal ∧
      n.isDirectory = directory := by
  constructor
  · rintro ⟨⟨q, n⟩, hmem, hsame, hdirectory⟩
    obtain ⟨names, hmeets, rfl⟩ := h.mem_walk.mp hmem
    exact ⟨names, n, hmeets, by rw [← hsame]; exact h.components_below hmeets, hdirectory⟩
  · rintro ⟨names, n, hmeets, hsame, hdirectory⟩
    refine ⟨(r.below names, n), h.mem_walk.mpr ⟨names, hmeets, rfl⟩, ?_, hdirectory⟩
    rw [hsame]
    exact h.components_below hmeets

/-- What is met further below a path is below something that is met. -/
theorem Meets.init (h : t.Meets r (above ++ names) n) (hne : above ≠ []) :
    ∃ d, t.Meets r above d ∧ d.at? names = some n := by
  obtain ⟨e, he, hn⟩ := (meets_iff (List.append_ne_nil_of_left_ne_nil hne _)).mp h
  rw [Node.at?_append] at hn
  obtain ⟨d, hd, hrest⟩ := Option.bind_eq_some_iff.mp hn
  exact ⟨d, (meets_iff hne).mpr ⟨e, he, hd⟩, hrest⟩

theorem Meets.append {d : Node} (h : t.Meets r above d) (hne : above ≠ [])
    (hn : d.at? names = some n) : t.Meets r (above ++ names) n := by
  obtain ⟨e, he, hd⟩ := (meets_iff hne).mp h
  refine (meets_iff (List.append_ne_nil_of_left_ne_nil hne _)).mpr ⟨e, he, ?_⟩
  rw [Node.at?_append, hd]
  exact hn

theorem Meets.contains (h : t.Meets r names n) (hne : names ≠ []) : t.contains r = true := by
  obtain ⟨d, hd, -⟩ := (meets_iff hne).mp h
  rw [Tree.contains, hd]

/-- What is met below a path is there under another path with the same components. -/
theorem Meets.exists_locate (h : t.Meets r above n) (hne : above ≠ [])
    (hs : s.components = r.components ++ above.map .normal) (htext : s.text ≠ "")
    (hwants : wantsDirectory s = true → n.isDirectory = true) :
    ∃ place, t.locate false s = .ok (place, some n) := by
  obtain ⟨d, hd, hn⟩ := (meets_iff hne).mp h
  exact exists_locate_of_find_at? hd hne hn hs htext hwants

theorem Meets.find_directory {entries : List (String × Node)}
    (h : t.Meets r above (.directory entries)) (hne : above ≠ [])
    (hs : s.components = r.components ++ above.map .normal) (htext : s.text ≠ "") :
    t.find s = .ok (.directory entries) := by
  obtain ⟨place, hlocate⟩ := h.exists_locate hne hs htext fun _ => rfl
  exact find_of_locate hlocate fun _ h => by cases h

/-- What is met below a root is met below an inner root. -/
theorem Meets.inner (h : t.Meets s (above ++ names) n) (hne : above ≠ [])
    (hr : r.components = s.components ++ above.map .normal) (htext : r.text ≠ "")
    (hplain : names = [] → wantsDirectory r = false) : t.Meets r names n := by
  obtain ⟨d, hd, hn⟩ := h.init hne
  cases names with
  | nil =>
    cases hn
    obtain ⟨place, hlocate⟩ := hd.exists_locate hne hr htext fun hwants => by
      rw [hplain rfl] at hwants
      cases hwants
    exact .itself hlocate
  | cons name names =>
    obtain ⟨entries, rfl⟩ := Node.exists_directory_of_at?_cons hn
    exact .inside (hd.find_directory hne hr htext) hn

/-- What is met below an inner root is met below an outer root from which the inner one is
reached. -/
theorem Meets.outer {name : String} {entries : List (String × Node)}
    (h : t.Meets s (name :: names) n) (hreached : t.Meets r above (.directory entries))
    (hne : above ≠ []) (hs : s.components = r.components ++ above.map .normal)
    (htext : s.text ≠ "") : t.Meets r (above ++ name :: names) n := by
  obtain ⟨d, hd, hn⟩ := (meets_iff (List.cons_ne_nil _ _)).mp h
  rw [hreached.find_directory hne hs htext] at hd
  cases hd
  exact hreached.append hne hn

/-! ## Files below roots -/

theorem text_ne_empty_of_contains (h : t.contains p = true) : p.text ≠ "" := by
  cases hfind : t.find p with
  | error e =>
    rw [Tree.contains, hfind] at h
    cases h
  | ok n => exact (find_iff_leadsTo.mp hfind).1

/-- The path of a file that is met is not empty and does not ask for a directory. -/
theorem Proper.plain_of_meets (h : t.Proper) (hmeets : t.Meets p names n)
    (hfile : n.isDirectory = false) :
    (p.below names).text ≠ "" ∧ wantsDirectory (p.below names) = false := by
  cases names with
  | nil =>
    obtain ⟨place, hlocate⟩ := meets_nil_iff.mp hmeets
    obtain ⟨htext, hwants, -⟩ := locate_eq_ok_iff.mp hlocate
    refine ⟨htext, ?_⟩
    cases hw : wantsDirectory p with
    | false => exact hw
    | true =>
      rw [hwants hw] at hfile
      cases hfile
  | cons name names => exact Path.below_plain p (List.cons_ne_nil _ _) (h.isName hmeets)

theorem modified_congr {time : Int} (h : t.modified p = .ok time)
    (same : q.components = p.components) (htext : q.text ≠ "") (hplain : wantsDirectory q = false) :
    t.modified q = .ok time := by
  have hwants : ∀ n : Node, wantsDirectory q = true → n.isDirectory = true := by
    intro n hw
    rw [hplain] at hw
    cases hw
  cases hfind : t.find p with
  | error e =>
    rw [modified, hfind] at h
    cases h
  | ok n =>
    rw [modified, find_congr hfind same htext (hwants n)]
    rw [modified, hfind] at h
    exact h

theorem contains_of_modified {time : Int} (h : t.modified p = .ok time) : t.contains p = true := by
  cases hfind : t.find p with
  | error e =>
    rw [modified, hfind] at h
    cases h
  | ok n => rw [Tree.contains, hfind]

theorem exists_modified_of_contains (h : t.contains p = true) :
    ∃ time, t.modified p = .ok time := by
  cases hfind : t.find p with
  | error e =>
    rw [Tree.contains, hfind] at h
    cases h
  | ok n => cases n <;> exact ⟨_, by rw [modified, hfind]⟩

theorem contains_of_modified_eq (same : t'.modified p = t.modified p) (h : t.contains p = true) :
    t'.contains p = true := by
  obtain ⟨time, htime⟩ := exists_modified_of_contains h
  exact contains_of_modified (same.trans htime)

theorem map_normal_injective : Function.Injective (List.map Component.normal) :=
  List.map_injective_iff.mpr fun _ _ => Component.normal.inj

/-- **Files stay below their roots.** If all that is tracked stays tracked, and inner roots that are
reached stay reached, then the files below a root are still below it, with the same times. -/
theorem Proper.mem_filesWithExtension_of_tracks (proper : t.Proper) (proper' : t'.Proper)
    (distinct : ∀ r ∈ roots, ∀ s ∈ roots, r.components = s.components → r = s)
    (reaches : ∀ r ∈ roots, ∀ s ∈ roots, r ≠ s → ∀ directory,
      t.Reaches r s directory → t'.Reaches r s directory)
    (tracks : ∀ p time, t.Tracks extension roots p time → t'.Tracks extension roots p time)
    (hr : r ∈ roots) (hq : q ∈ t.filesWithExtension r extension) (hthere : t.contains q = true) :
    q ∈ t'.filesWithExtension r extension ∧ t'.modified q = t.modified q := by
  obtain ⟨time, htime⟩ := exists_modified_of_contains hthere
  rw [htime]
  obtain ⟨s, hs, q', hq', hsame, htime'⟩ := tracks q time ⟨r, hr, q, hq, rfl, htime⟩
  obtain ⟨hcontains, hextension, names, n, hmeets, hfile, rfl⟩ :=
    proper.mem_filesWithExtension.mp hq
  obtain ⟨hcontains', -, names', n', hmeets', hfile', rfl⟩ :=
    proper'.mem_filesWithExtension.mp hq'
  obtain ⟨htext, hplain⟩ := proper.plain_of_meets hmeets hfile
  have hmodified : t'.modified (r.below names) = .ok time :=
    modified_congr htime' hsame.symm htext hplain
  suffices hthere : t'.contains r = true ∧ ∃ n, t'.Meets r names n ∧ n.isDirectory = false by
    obtain ⟨hcontains, n, hmeets, hfile⟩ := hthere
    exact ⟨proper'.mem_filesWithExtension.mpr
      ⟨hcontains, hextension, names, n, hmeets, hfile, rfl⟩, hmodified⟩
  rw [proper.components_below hmeets, proper'.components_below hmeets'] at hsame
  -- of two roots above the same file, one is above the other
  rcases List.append_eq_append_iff.mp hsame with ⟨d, hrs, hd⟩ | ⟨d, hsr, hd⟩
  · obtain ⟨above, rest, rfl, rfl, hrest⟩ := List.map_eq_append_iff.mp hd
    cases map_normal_injective hrest
    by_cases habove : above = []
    · subst habove
      cases distinct r hr s hs (by rw [hrs]; exact List.append_nil _)
      exact ⟨hcontains', n', hmeets', hfile'⟩
    · have hinner : t'.Meets r names n' := by
        refine hmeets'.inner habove hrs (text_ne_empty_of_contains hcontains) ?_
        rintro rfl
        exact hplain
      refine ⟨?_, n', hinner, hfile'⟩
      by_cases hnames : names = []
      · subst hnames
        exact contains_of_modified hmodified
      · exact hinner.contains hnames
  · obtain ⟨above, rest, rfl, rfl, hrest⟩ := List.map_eq_append_iff.mp hd
    cases map_normal_injective hrest
    by_cases habove : above = []
    · subst habove
      cases distinct r hr s hs (by rw [hsr]; exact (List.append_nil _).symm)
      exact ⟨hcontains', n', hmeets', hfile'⟩
    · have hne : r ≠ s := by
        rintro rfl
        exact habove (List.map_eq_nil_iff.mp (List.append_right_eq_self.mp hsr.symm))
      obtain ⟨d, hd, hn⟩ := hmeets.init habove
      obtain ⟨above', d', hd', hsr', hdirectory⟩ := proper'.reaches_iff.mp
        (reaches r hr s hs hne _ (proper.reaches_iff.mpr ⟨above, d, hd, hsr, rfl⟩))
      cases map_normal_injective (List.append_cancel_left (hsr.symm.trans hsr'))
      refine ⟨hd'.contains habove, ?_⟩
      cases names' with
      | nil =>
        cases hn
        exact ⟨d', by rwa [List.append_nil], hdirectory.trans hfile⟩
      | cons name names' =>
        obtain ⟨entries, rfl⟩ := Node.exists_directory_of_at?_cons hn
        obtain ⟨entries', rfl⟩ : ∃ entries', d' = .directory entries' := by
          cases d' with
          | directory entries' => exact ⟨entries', rfl⟩
          | file contents modified => cases hdirectory
          | link target => cases hdirectory
        have htext := text_ne_empty_of_contains hcontains'
        exact ⟨n', hmeets'.outer hd' habove hsr htext, hfile'⟩

/-- **Tracked files tell what is below each root.** If two trees have the same tracked files, and
the walks below the roots meet the other roots in the same way, then the files below a root that can
be found are the same. -/
theorem Proper.filesWithExtension_eq_of_tracks (proper : t.Proper) (proper' : t'.Proper)
    (distinct : ∀ r ∈ roots, ∀ s ∈ roots, r.components = s.components → r = s)
    (nests : t.NestsAlike t' roots)
    (tracks : ∀ p time, t.Tracks extension roots p time ↔ t'.Tracks extension roots p time)
    (hr : r ∈ roots) :
    (t.filesWithExtension r extension).filter t.contains =
      (t'.filesWithExtension r extension).filter t'.contains := by
  refine Path.eq_of_before ((proper.ascending_filesWithExtension r extension).filter _)
    ((proper'.ascending_filesWithExtension r extension).filter _) fun q => ?_
  rw [List.mem_filter, List.mem_filter]
  constructor
  · rintro ⟨hq, hthere⟩
    obtain ⟨hq', htime⟩ := proper.mem_filesWithExtension_of_tracks proper' distinct
      (fun r hr s hs hne directory => (nests r hr s hs hne directory).mp)
      (fun p time => (tracks p time).mp) hr hq hthere
    exact ⟨hq', contains_of_modified_eq htime hthere⟩
  · rintro ⟨hq, hthere⟩
    obtain ⟨hq', htime⟩ := proper'.mem_filesWithExtension_of_tracks proper distinct
      (fun r hr s hs hne directory => (nests r hr s hs hne directory).mpr)
      (fun p time => (tracks p time).mpr) hr hq hthere
    exact ⟨hq', contains_of_modified_eq htime hthere⟩

/-- If edits show as well, then what is found below a root also reads the same. -/
theorem Proper.read_eq_of_tracks (proper : t.Proper) (proper' : t'.Proper)
    (distinct : ∀ r ∈ roots, ∀ s ∈ roots, r.components = s.components → r = s)
    (nests : t.NestsAlike t' roots) (shows : t.EditsShow t')
    (tracks : ∀ p time, t.Tracks extension roots p time ↔ t'.Tracks extension roots p time)
    (hr : r ∈ roots) (hq : q ∈ t.filesWithExtension r extension) (hthere : t.contains q = true) :
    t'.read q = t.read q := by
  obtain ⟨-, htime⟩ := proper.mem_filesWithExtension_of_tracks proper' distinct
    (fun r hr s hs hne directory => (nests r hr s hs hne directory).mp)
    (fun p time => (tracks p time).mp) hr hq hthere
  by_contra hne
  rcases shows q hne with h | h | h
  · exact h htime
  · rw [hthere] at h
    cases h
  · rw [contains_of_modified_eq htime hthere] at h
    cases h

end PackHost.Files.Tree
