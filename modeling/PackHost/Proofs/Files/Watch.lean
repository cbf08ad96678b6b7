import Mathlib.Data.Set.Card
import PackHost.Proofs.Files.Lookup
import PackHost.Proofs.Files.Times

/-!
# What scans report

A scan compares the script files of two file trees, whatever roots overlap and whatever happens to
directories in between. `ScanReport.Compares` says what it reports, and `ScanReport.Replays` what
the reports of several scans amount to. The main statement is `Watch.scanAll_compares`.
-/

namespace PackHost.Files

/-! ## Tracked files -/

namespace Tree

variable (t : Tree) (extension : String) (roots : List Path)

def found : List Path := roots.flatMap fun root => t.filesWithExtension root extension

/-- Below one of the roots there is a script file with this path, however it is written, and with
this modification time. -/
def Tracks (p : Path) (time : Int) : Prop :=
  ∃ root ∈ roots, ∃ q ∈ t.filesWithExtension root extension,
    q.components = p.components ∧ t.modified q = .ok time

def trackedPaths : Set (List Component) :=
  {cs | ∃ p time, p.components = cs ∧ t.Tracks extension roots p time}

variable {t extension roots} {p q : Path} {time : Int}

theorem tracks_iff_of_found : t.Tracks extension roots p time ↔
    ∃ q ∈ t.found extension roots, q.components = p.components ∧ t.modified q = .ok time := by
  constructor
  · rintro ⟨root, hroot, q, hq, h⟩
    exact ⟨q, List.mem_flatMap.mpr ⟨root, hroot, hq⟩, h⟩
  · rintro ⟨q, hq, h⟩
    obtain ⟨root, hroot, hq⟩ := List.mem_flatMap.mp hq
    exact ⟨root, hroot, q, hq, h⟩

theorem components_mem_trackedPaths :
    p.components ∈ t.trackedPaths extension roots ↔ ∃ time, t.Tracks extension roots p time := by
  constructor
  · rintro ⟨q, time, hq, root, hroot, q', hq', hsame, htime⟩
    exact ⟨time, root, hroot, q', hq', hsame.trans hq, htime⟩
  · rintro ⟨time, h⟩
    exact ⟨p, time, rfl, h⟩

end Tree

/-! ## Records -/

/-- The times record the files among the paths that have a modification time in the tree. -/
structure Times.Record (t : Tree) (ps : List Path) (ts : Times) : Prop where
  ascending : ts.Ascending
  drawn : ∀ e ∈ ts, e.1 ∈ ps ∧ t.modified e.1 = .ok e.2
  covers : ∀ p ∈ ps, ∀ time, t.modified p = .ok time → ts.get? p = some time

namespace Times.Record

variable {t : Tree} {ps : List Path} {ts : Times} {p q : Path} {time : Int}

theorem nil (t : Tree) : Record t [] [] where
  ascending := List.Pairwise.nil
  drawn _ h := by cases h
  covers _ h := by cases h

theorem insert (h : Record t ps ts) (htime : t.modified p = .ok time) :
    Record t (ps ++ [p]) (ts.insert p time) where
  ascending := h.ascending.insert p time
  drawn e he := by
    rcases mem_insert he with rfl | he | ⟨old, hold, hsame, rfl⟩
    · exact ⟨List.mem_append_right _ (List.mem_singleton.mpr rfl), htime⟩
    · exact ⟨List.mem_append_left _ (h.drawn e he).1, (h.drawn e he).2⟩
    · -- the path was there in another spelling, so its time is the same
      obtain ⟨hmem, hmodified⟩ := h.drawn _ hold
      refine ⟨List.mem_append_left _ hmem, ?_⟩
      rw [hmodified, Tree.modified_unique hsame hmodified htime]
  covers q hq a ha := by
    rw [get?_insert]
    split
    · next hsame => rw [Tree.modified_unique hsame htime ha]
    · next hne =>
      rcases List.mem_append.mp hq with hq | hq
      · exact h.covers q hq a ha
      · rw [List.mem_singleton.mp hq] at hne
        exact absurd rfl hne

theorem skip (h : Record t ps ts) (hnone : ∀ time, t.modified p ≠ .ok time) :
    Record t (ps ++ [p]) ts where
  ascending := h.ascending
  drawn e he := ⟨List.mem_append_left _ (h.drawn e he).1, (h.drawn e he).2⟩
  covers q hq a ha := by
    rcases List.mem_append.mp hq with hq | hq
    · exact h.covers q hq a ha
    · rw [List.mem_singleton.mp hq] at ha
      exact absurd ha (hnone a)

theorem timesOf (h : Record t ps ts) (notes : List LogEntry) (qs : List Path) :
    Record t (ps ++ qs) (Watch.timesOf t qs (ts, notes)).1 := by
  induction qs generalizing ps ts notes with
  | nil => rwa [List.append_nil]
  | cons q qs ih =>
    rw [List.append_cons]
    unfold Watch.timesOf
    split
    · next time htime => exact ih (h.insert htime) notes
    · next e he =>
      have hnone : ∀ time, t.modified q ≠ .ok time := by
        intro time htime
        rw [he] at htime
        cases htime
      exact ih (h.skip hnone) _

theorem snapshot (t : Tree) (extension : String) (roots : List Path) :
    Record t (t.found extension roots) (Watch.snapshot t extension roots).1 :=
  (nil t).timesOf [] _

variable {extension : String} {roots : List Path}

theorem get?_eq_some_iff (h : Record t (t.found extension roots) ts) :
    ts.get? p = some time ↔ t.Tracks extension roots p time := by
  rw [Tree.tracks_iff_of_found]
  constructor
  · intro hget
    obtain ⟨e, he, hsame, rfl⟩ := exists_of_get?_eq_some hget
    exact ⟨e.1, (h.drawn e he).1, hsame, (h.drawn e he).2⟩
  · rintro ⟨q, hq, hsame, htime⟩
    rw [← get?_congr hsame]
    exact h.covers q hq time htime

theorem get?_isNone_iff (h : Record t (t.found extension roots) ts) :
    (ts.get? p).isNone = true ↔ ∀ time, ¬t.Tracks extension roots p time := by
  simp only [Option.isNone_iff_eq_none, Option.eq_none_iff_forall_ne_some, ne_eq,
    h.get?_eq_some_iff]

theorem tracks (h : Record t (t.found extension roots) ts) {e : Path × Int} (he : e ∈ ts) :
    t.Tracks extension roots e.1 e.2 :=
  h.get?_eq_some_iff.mp (h.ascending.get?_eq_some_of_mem he)

theorem exists_mem (h : Record t (t.found extension roots) ts)
    (htracks : t.Tracks extension roots p time) :
    ∃ e ∈ ts, e.1.components = p.components ∧ e.2 = time :=
  exists_of_get?_eq_some (h.get?_eq_some_iff.mpr htracks)

theorem length_eq (h : Record t (t.found extension roots) ts) :
    ts.length = (t.trackedPaths extension roots).ncard := by
  let paths := ts.map fun e => e.1.components
  have hpaths : t.trackedPaths extension roots = ↑paths.toFinset := by
    ext cs
    rw [Finset.mem_coe, List.mem_toFinset, List.mem_map]
    constructor
    · rintro ⟨p, time, rfl, htracks⟩
      obtain ⟨e, he, hsame, -⟩ := h.exists_mem htracks
      exact ⟨e, he, hsame⟩
    · rintro ⟨e, he, rfl⟩
      exact ⟨e.1, e.2, rfl, h.tracks he⟩
  have hnodup : paths.Nodup :=
    List.pairwise_map.mpr (h.ascending.imp fun hbefore => hbefore.components_ne)
  rw [hpaths, Set.ncard_coe_finset, List.toFinset_card_of_nodup hnodup, List.length_map]

end Times.Record

/-! ## One report -/

namespace ScanReport

variable {extension : String} {roots : List Path} {old new : Tree}

/-- The report is the difference of the tracked files of two trees. Paths count by their components,
and each is written as it was found. -/
structure Compares (extension : String) (roots : List Path) (old new : Tree) (r : ScanReport) :
    Prop where
  /-- Files are new if only the new tree has them. -/
  added : ∀ p, p.components ∈ r.added.map Path.components ↔
    (∃ time, new.Tracks extension roots p time) ∧ ∀ time, ¬old.Tracks extension roots p time
  /-- Files are gone if only the old tree has them. -/
  removed : ∀ p, p.components ∈ r.removed.map Path.components ↔
    (∃ time, old.Tracks extension roots p time) ∧ ∀ time, ¬new.Tracks extension roots p time
  /-- Files are changed if both have them with different times; the new one is given. -/
  changed : ∀ p time, (p.components, time) ∈ r.changed.map (fun e => (e.1.components, e.2)) ↔
    new.Tracks extension roots p time ∧
      ∃ before, old.Tracks extension roots p before ∧ before ≠ time
  /-- The lists are in ascending order and name nothing twice. -/
  ascending : r.added.Pairwise Path.Before ∧ r.removed.Pairwise Path.Before ∧
    (r.changed.map Prod.fst).Pairwise Path.Before
  disjoint : (r.added.map Path.components).Disjoint (r.removed.map Path.components) ∧
    (r.added.map Path.components).Disjoint (r.changed.map fun e => e.1.components) ∧
    (r.removed.map Path.components).Disjoint (r.changed.map fun e => e.1.components)
  found : (∀ p ∈ r.added, p ∈ new.found extension roots) ∧
    (∀ p ∈ r.removed, p ∈ old.found extension roots) ∧
    ∀ e ∈ r.changed, e.1 ∈ new.found extension roots
  /-- There are no changes exactly if both trees have the same files with the same times. -/
  hasChanges : r.hasChanges = false ↔
    ∀ p time, old.Tracks extension roots p time ↔ new.Tracks extension roots p time

section

variable {before after : Times}

theorem mem_added {p : Path} : p ∈ (between before after).added ↔
    ∃ time, (p, time) ∈ after ∧ (before.get? p).isNone = true := by
  simp [between]

theorem mem_changed {e : Path × Int} : e ∈ (between before after).changed ↔
    e ∈ after ∧ ∃ time, before.get? e.1 = some time ∧ time ≠ e.2 := by
  cases h : before.get? e.1 <;> simp [between, h]

theorem removed_between : (between before after).removed = (between after before).added := rfl

theorem hasChanges_eq_false_iff {r : ScanReport} :
    r.hasChanges = false ↔ r.changed = [] ∧ r.added = [] ∧ r.removed = [] := by
  simp [ScanReport.hasChanges, and_assoc]

theorem ascending_added (h : after.Ascending) :
    (between before after).added.Pairwise Path.Before :=
  List.pairwise_map.mpr (List.Pairwise.filter _ h)

variable (hold : before.Record old (old.found extension roots))
  (hnew : after.Record new (new.found extension roots))
include hold hnew

theorem components_mem_added (p : Path) :
    p.components ∈ (between before after).added.map Path.components ↔
      (∃ time, new.Tracks extension roots p time) ∧
        ∀ time, ¬old.Tracks extension roots p time := by
  rw [List.mem_map, ← hold.get?_isNone_iff]
  constructor
  · rintro ⟨q, hq, hsame⟩
    obtain ⟨time, hmem, hnone⟩ := mem_added.mp hq
    rw [Times.get?_congr hsame] at hnone
    refine ⟨⟨time, hnew.get?_eq_some_iff.mp ?_⟩, hnone⟩
    rw [← Times.get?_congr hsame]
    exact hnew.ascending.get?_eq_some_of_mem hmem
  · rintro ⟨⟨time, htracks⟩, hnone⟩
    obtain ⟨e, he, hsame, rfl⟩ := hnew.exists_mem htracks
    rw [← Times.get?_congr hsame] at hnone
    exact ⟨e.1, mem_added.mpr ⟨e.2, he, hnone⟩, hsame⟩

theorem components_mem_changed (p : Path) (time : Int) :
    (p.components, time) ∈ (between before after).changed.map (fun e => (e.1.components, e.2)) ↔
      new.Tracks extension roots p time ∧
        ∃ earlier, old.Tracks extension roots p earlier ∧ earlier ≠ time := by
  simp only [List.mem_map, Prod.mk.injEq, ← hold.get?_eq_some_iff, ← hnew.get?_eq_some_iff]
  constructor
  · rintro ⟨e, he, hsame, rfl⟩
    obtain ⟨hmem, hearlier⟩ := mem_changed.mp he
    rw [← Times.get?_congr hsame, ← Times.get?_congr hsame]
    exact ⟨hnew.ascending.get?_eq_some_of_mem hmem, hearlier⟩
  · rintro ⟨hget, hearlier⟩
    obtain ⟨e, he, hsame, rfl⟩ := Times.exists_of_get?_eq_some hget
    rw [← Times.get?_congr hsame] at hearlier
    exact ⟨e, mem_changed.mpr ⟨he, hearlier⟩, hsame, rfl⟩

theorem hasChanges_between : (between before after).hasChanges = false ↔
    ∀ p time, old.Tracks extension roots p time ↔ new.Tracks extension roots p time := by
  have hadded := components_mem_added hold hnew
  have hremoved := components_mem_added hnew hold
  have hchanged := components_mem_changed hold hnew
  rw [hasChanges_eq_false_iff, removed_between]
  constructor
  · rintro ⟨hc, ha, hr⟩ p time
    rw [ha] at hadded
    rw [hr] at hremoved
    rw [hc] at hchanged
    constructor
    · intro hp
      have hthere : ∃ time', new.Tracks extension roots p time' := by
        by_contra hnone
        exact List.not_mem_nil ((hremoved p).mpr ⟨⟨time, hp⟩, not_exists.mp hnone⟩)
      obtain ⟨time', hp'⟩ := hthere
      by_cases htime : time = time'
      · rwa [htime]
      · exact absurd ((hchanged p time').mpr ⟨hp', time, hp, htime⟩) List.not_mem_nil
    · intro hp
      have hthere : ∃ time', old.Tracks extension roots p time' := by
        by_contra hnone
        exact List.not_mem_nil ((hadded p).mpr ⟨⟨time, hp⟩, not_exists.mp hnone⟩)
      obtain ⟨time', hp'⟩ := hthere
      by_cases htime : time' = time
      · rwa [← htime]
      · exact absurd ((hchanged p time).mpr ⟨hp, time', hp', htime⟩) List.not_mem_nil
  · intro hsame
    refine ⟨List.eq_nil_iff_forall_not_mem.mpr fun e he => ?_,
      List.eq_nil_iff_forall_not_mem.mpr fun p hp => ?_,
      List.eq_nil_iff_forall_not_mem.mpr fun p hp => ?_⟩
    · obtain ⟨hmem, earlier, hget, hne⟩ := mem_changed.mp he
      have hboth := (hsame _ _).mpr (hnew.tracks hmem)
      rw [← hold.get?_eq_some_iff, hget] at hboth
      exact hne (Option.some.inj hboth)
    · obtain ⟨⟨time, hp⟩, hnone⟩ := (hadded p).mp (List.mem_map_of_mem hp)
      exact hnone time ((hsame p time).mpr hp)
    · obtain ⟨⟨time, hp⟩, hnone⟩ := (hremoved p).mp (List.mem_map_of_mem hp)
      exact hnone time ((hsame p time).mp hp)

/-- The report on two records is the difference of their trees. -/
theorem compares_between : (between before after).Compares extension roots old new where
  added := components_mem_added hold hnew
  removed := components_mem_added hnew hold
  changed := components_mem_changed hold hnew
  ascending := ⟨ascending_added hnew.ascending, ascending_added hold.ascending,
    List.pairwise_map.mpr (List.Pairwise.filter _ hnew.ascending)⟩
  disjoint := by
    have hchanged : ∀ cs ∈ (between before after).changed.map (fun e => e.1.components),
        ∃ p time earlier, p.components = cs ∧ new.Tracks extension roots p time ∧
          old.Tracks extension roots p earlier := by
      intro cs hcs
      obtain ⟨e, he, rfl⟩ := List.mem_map.mp hcs
      obtain ⟨hmem, earlier, hget, -⟩ := mem_changed.mp he
      exact ⟨e.1, e.2, earlier, rfl, hnew.tracks hmem, hold.get?_eq_some_iff.mp hget⟩
    refine ⟨fun cs ha hr => ?_, fun cs ha hc => ?_, fun cs hr hc => ?_⟩
    · obtain ⟨p, -, rfl⟩ := List.mem_map.mp ha
      obtain ⟨⟨time, hp⟩, -⟩ := (components_mem_added hold hnew p).mp ha
      exact ((components_mem_added hnew hold p).mp hr).2 time hp
    · obtain ⟨p, time, earlier, rfl, -, hp⟩ := hchanged cs hc
      exact ((components_mem_added hold hnew p).mp ha).2 earlier hp
    · obtain ⟨p, time, earlier, rfl, hp, -⟩ := hchanged cs hc
      exact ((components_mem_added hnew hold p).mp hr).2 time hp
  found := by
    refine ⟨fun p hp => ?_, fun p hp => ?_, fun e he => ?_⟩
    · obtain ⟨time, hmem, -⟩ := mem_added.mp hp
      exact (hnew.drawn _ hmem).1
    · obtain ⟨time, hmem, -⟩ := mem_added.mp hp
      exact (hold.drawn _ hmem).1
    · exact (hnew.drawn e (mem_changed.mp he).1).1
  hasChanges := hasChanges_between hold hnew

end

end ScanReport

/-! ## Several reports -/

namespace ScanReport

/-- Reports, one after another, lead from some paths to others: what is reported as gone was there,
what is reported as new was not, and nothing else comes or goes. -/
inductive Replays : Set (List Component) → List ScanReport → Set (List Component) → Prop
  | nil (paths : Set (List Component)) : Replays paths [] paths
  | cons {paths last : Set (List Component)} {r : ScanReport} {rs : List ScanReport} :
      (∀ cs ∈ r.removed.map Path.components, cs ∈ paths) →
      (∀ cs ∈ r.added.map Path.components, cs ∉ paths) →
      Replays ((paths \ {cs | cs ∈ r.removed.map Path.components}) ∪
        {cs | cs ∈ r.added.map Path.components}) rs last →
      Replays paths (r :: rs) last

variable {extension : String} {roots : List Path} {old new : Tree} {r : ScanReport}

/-- A report leads from the tracked paths of the old tree to those of the new one. -/
theorem Compares.replays (h : r.Compares extension roots old new) {rs : List ScanReport}
    {last : Set (List Component)} (hrest : Replays (new.trackedPaths extension roots) rs last) :
    Replays (old.trackedPaths extension roots) (r :: rs) last := by
  have hremoved : ∀ cs ∈ r.removed.map Path.components, cs ∈ old.trackedPaths extension roots := by
    intro cs hcs
    obtain ⟨p, -, rfl⟩ := List.mem_map.mp hcs
    exact Tree.components_mem_trackedPaths.mpr ((h.removed p).mp hcs).1
  have hadded : ∀ cs ∈ r.added.map Path.components, cs ∉ old.trackedPaths extension roots := by
    intro cs hcs hold
    obtain ⟨p, -, rfl⟩ := List.mem_map.mp hcs
    obtain ⟨time, hold⟩ := Tree.components_mem_trackedPaths.mp hold
    exact ((h.added p).mp hcs).2 time hold
  refine .cons hremoved hadded ?_
  have hpaths : (old.trackedPaths extension roots \ {cs | cs ∈ r.removed.map Path.components}) ∪
      {cs | cs ∈ r.added.map Path.components} = new.trackedPaths extension roots := by
    ext cs
    constructor
    · rintro (⟨⟨p, time, rfl, hp⟩, hkept⟩ | hcs)
      · by_contra hgone
        refine hkept ((h.removed p).mpr ⟨⟨time, hp⟩, fun time' hp' => hgone ?_⟩)
        exact Tree.components_mem_trackedPaths.mpr ⟨time', hp'⟩
      · obtain ⟨p, -, rfl⟩ := List.mem_map.mp hcs
        exact Tree.components_mem_trackedPaths.mpr ((h.added p).mp hcs).1
    · rintro ⟨p, time, rfl, hp⟩
      by_cases hold : p.components ∈ old.trackedPaths extension roots
      · exact .inl ⟨hold, fun hcs => ((h.removed p).mp hcs).2 time hp⟩
      · refine .inr ((h.added p).mpr ⟨⟨time, hp⟩, fun time' hp' => hold ?_⟩)
        exact Tree.components_mem_trackedPaths.mpr ⟨time', hp'⟩
  rwa [hpaths]

end ScanReport

namespace Watch

def scanAll (w : Watch) : List (Tree × Nat) → List ScanReport × Watch
  | [] => ([], w)
  | (t, now) :: later =>
    let rest := (w.scan t now).2.1.scanAll later
    ((w.scan t now).1 :: rest.1, rest.2)

def Knows (w : Watch) (t : Tree) : Prop := w.times.Record t (t.found w.extension w.roots)

theorem knows_start (t : Tree) (roots : List Path) (extension : String) (interval : Nat) :
    (start t roots extension interval).1.Knows t :=
  Times.Record.snapshot t extension roots

variable {w : Watch} {t : Tree}

theorem knows_scan (w : Watch) (t : Tree) (now : Nat) : (w.scan t now).2.1.Knows t :=
  Times.Record.snapshot t w.extension w.roots

/-- A scan compares its tree with the one that the watch knows. -/
theorem Knows.compares_scan (h : w.Knows t) (t' : Tree) (now : Nat) :
    (w.scan t' now).1.Compares w.extension w.roots t t' :=
  ScanReport.compares_between h (w.knows_scan t' now)

theorem Knows.size_eq (h : w.Knows t) :
    w.size = (t.trackedPaths w.extension w.roots).ncard := h.length_eq

theorem length_scanAll (w : Watch) (later : List (Tree × Nat)) :
    (w.scanAll later).1.length = later.length := by
  induction later generalizing w with
  | nil => rfl
  | cons s later ih => exact congrArg (· + 1) (ih _)

theorem roots_scanAll (w : Watch) (later : List (Tree × Nat)) :
    (w.scanAll later).2.roots = w.roots ∧ (w.scanAll later).2.extension = w.extension := by
  induction later generalizing w with
  | nil => exact ⟨rfl, rfl⟩
  | cons s later ih => exact ih (w.scan s.1 s.2).2.1

/-- After any number of scans the watch knows the tree of the last one. -/
theorem Knows.scanAll_take (h : w.Knows t) (later : List (Tree × Nat)) {i : Nat} {t' : Tree}
    (ht' : (t :: later.map Prod.fst)[i]? = some t') : (w.scanAll (later.take i)).2.Knows t' := by
  induction later generalizing w t i with
  | nil =>
    cases i with
    | zero =>
      cases ht'
      exact h
    | succ i => cases ht'
  | cons s later ih =>
    cases i with
    | zero =>
      cases ht'
      exact h
    | succ i => exact ih (w.knows_scan s.1 s.2) ht'

/-- Every scan compares its tree with that of the scan before. -/
theorem Knows.compares_scanAll (h : w.Knows t) (later : List (Tree × Nat)) {i : Nat}
    {old new : Tree} {r : ScanReport} (hold : (t :: later.map Prod.fst)[i]? = some old)
    (hnew : (t :: later.map Prod.fst)[i + 1]? = some new) (hr : (w.scanAll later).1[i]? = some r) :
    r.Compares w.extension w.roots old new := by
  induction later generalizing w t i with
  | nil => cases hnew
  | cons s later ih =>
    cases i with
    | zero =>
      cases hold
      cases hnew
      cases hr
      exact h.compares_scan s.1 s.2
    | succ i =>
      have hlater := ih (w.knows_scan s.1 s.2) hold hnew hr
      exact hlater

theorem Knows.replays_scanAll (h : w.Knows t) (later : List (Tree × Nat)) :
    ScanReport.Replays (t.trackedPaths w.extension w.roots) (w.scanAll later).1
      (((later.map Prod.fst).getLastD t).trackedPaths w.extension w.roots) := by
  induction later generalizing w t with
  | nil => exact .nil _
  | cons s later ih =>
    have hrest := ih (w.knows_scan s.1 s.2)
    rw [List.map_cons, List.getLastD_cons]
    exact (h.compares_scan s.1 s.2).replays hrest

/-- **Scans report what happened, and nothing else.** Whatever file trees the scans of a watch
see, and whatever its roots are, each report is the difference of the tracked files of its tree
and of the one before, and the watch counts the tracked files of the last tree. So the reports
lead from the tracked paths of the first tree to those of the last one, and nothing is lost or
reported twice. -/
theorem scanAll_compares (first : Tree) (roots : List Path) (extension : String) (interval : Nat)
    (later : List (Tree × Nat)) :
    let watch := (start first roots extension interval).1
    let trees := first :: later.map Prod.fst
    let reports := (watch.scanAll later).1
    reports.length = later.length ∧
    (∀ i old new r, trees[i]? = some old → trees[i + 1]? = some new → reports[i]? = some r →
      r.Compares extension roots old new) ∧
    (∀ i t, trees[i]? = some t →
      (watch.scanAll (later.take i)).2.size = (t.trackedPaths extension roots).ncard) ∧
    ScanReport.Replays (first.trackedPaths extension roots) reports
      (((later.map Prod.fst).getLastD first).trackedPaths extension roots) := by
  have h := knows_start first roots extension interval
  refine ⟨length_scanAll _ later, fun i old new r => h.compares_scanAll later, fun i t ht => ?_,
    h.replays_scanAll later⟩
  have hsize := (h.scanAll_take later ht).size_eq
  obtain ⟨hroots, hextension⟩ := roots_scanAll (start first roots extension interval).1
    (later.take i)
  rwa [hroots, hextension] at hsize

namespace Sample

def tree (name : String) (time : Int) : Tree :=
  ⟨.directory [("s", .directory [(name, .file .empty time)])], [], 0⟩

theorem locate_tree (name : String) (time : Int) (last : Bool) :
    (tree name time).locate last ⟨"s"⟩ =
      .ok (["s"], some (.directory [(name, .file .empty time)])) := by
  have hcomponents : Path.components ⟨"s"⟩ = [.normal "s"] := rfl
  simp [Tree.locate, Tree.follow, Tree.wantsDirectory, Tree.startOf, Node.at?, Table.get?, tree,
    hcomponents]

theorem filesWithExtension_tree {name : String} (time : Int)
    (hextension : (Path.join ⟨"s"⟩ ⟨name⟩).extension? = some "rhai") :
    (tree name time).filesWithExtension ⟨"s"⟩ "rhai" = [Path.join ⟨"s"⟩ ⟨name⟩] := by
  have hwalk : (tree name time).walk ⟨"s"⟩ =
      [(⟨"s"⟩, .directory [(name, .file .empty time)]),
        (Path.join ⟨"s"⟩ ⟨name⟩, .file .empty time)] := by
    simp only [Tree.walk, locate_tree]
    rfl
  rw [Tree.filesWithExtension, if_pos (by rw [Tree.contains, Tree.find, locate_tree]), hwalk]
  simp [Node.isDirectory, hextension]

/-- The only file is recorded once, although its root is given twice. -/
theorem snapshot_tree {name : String} {p : Path} (time : Int) (hp : Path.join ⟨"s"⟩ ⟨name⟩ = p)
    (hextension : p.extension? = some "rhai")
    (hcomponents : p.components = [.normal "s", .normal name])
    (hplain : p.text ≠ "" ∧ Tree.wantsDirectory p = false) :
    (snapshot (tree name time) "rhai" [⟨"s"⟩, ⟨"s"⟩]).1 = [(p, time)] := by
  have hfiles : (tree name time).filesWithExtension ⟨"s"⟩ "rhai" = [p] := by
    rw [filesWithExtension_tree time (by rwa [hp]), hp]
  have hmodified : (tree name time).modified p = .ok time := by
    simp [Tree.modified, Tree.find, Tree.locate, Tree.follow, Tree.startOf, Node.at?, Table.get?,
      tree, hcomponents, Node.isDirectory, Node.child?, hplain]
  have horder : p.order p = .eq := Path.order_eq_eq_iff.mpr rfl
  simp [snapshot, hfiles, timesOf, hmodified, Times.insert, horder]

theorem snapshot_a (time : Int) :
    (snapshot (tree "a.rhai" time) "rhai" [⟨"s"⟩, ⟨"s"⟩]).1 = [(⟨"s/a.rhai"⟩, time)] :=
  snapshot_tree time rfl rfl rfl (by decide)

theorem snapshot_b (time : Int) :
    (snapshot (tree "b.rhai" time) "rhai" [⟨"s"⟩, ⟨"s"⟩]).1 = [(⟨"s/b.rhai"⟩, time)] :=
  snapshot_tree time rfl rfl rfl (by decide)

end Sample

/-- The time of the file changes, and then the file is renamed. The root is given twice. -/
theorem scanAll_compares_sample :
    let watch := (start (Sample.tree "a.rhai" 1000) [⟨"s"⟩, ⟨"s"⟩] "rhai" 0).1
    let later := [(Sample.tree "a.rhai" 2000, 5), (Sample.tree "b.rhai" 2000, 9)]
    ∃ r r', (watch.scanAll later).1 = [r, r'] ∧
      r.changed = [(⟨"s/a.rhai"⟩, 2000)] ∧ r.added = [] ∧ r.removed = [] ∧
      r'.changed = [] ∧ r'.added = [⟨"s/b.rhai"⟩] ∧ r'.removed = [⟨"s/a.rhai"⟩] ∧
      r.Compares "rhai" [⟨"s"⟩, ⟨"s"⟩] (Sample.tree "a.rhai" 1000) (Sample.tree "a.rhai" 2000) ∧
      (watch.scanAll later).2.size =
        ((Sample.tree "b.rhai" 2000).trackedPaths "rhai" [⟨"s"⟩, ⟨"s"⟩]).ncard := by
  intro watch later
  obtain ⟨-, hcompares, hsize, -⟩ := scanAll_compares (Sample.tree "a.rhai" 1000)
    [⟨"s"⟩, ⟨"s"⟩] "rhai" 0 later
  have hreports : (watch.scanAll later).1 =
      [.between [(⟨"s/a.rhai"⟩, 1000)] [(⟨"s/a.rhai"⟩, 2000)],
        .between [(⟨"s/a.rhai"⟩, 2000)] [(⟨"s/b.rhai"⟩, 2000)]] := by
    simp only [watch, later, scanAll, scan, start, Sample.snapshot_a, Sample.snapshot_b]
  refine ⟨_, _, hreports, rfl, rfl, rfl, rfl, rfl, rfl, ?_, hsize 2 _ rfl⟩
  exact hcompares 0 _ _ _ rfl rfl (by rw [hreports]; rfl)

end Watch

end PackHost.Files
