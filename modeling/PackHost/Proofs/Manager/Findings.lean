import PackHost.Proofs.Manager.Discovery
import PackHost.Proofs.Pack.Location
import PackHost.Proofs.Pack.Sorting
import PackHost.Proofs.Twin.Pack

/-!
# What is found of a pack

`packIn` is the pack that a directory holds: its units are the readable files, put in one by one. A
look into a directory puts this pack into its place, or drops the packs of the name if they are not
wanted (`discoverPack_of_enabled`, `discoverPack_of_disabled`). What was found of a pack stays as it
is when units run.
-/

namespace PackHost

open Pack

variable {ω γ κ : Type}

/-- What was found of a pack: its name, its description, its root and the files of its units. -/
def Pack.ScriptPack.findings (k : ScriptPack κ) :
    String × String × Files.Path × List ScriptFile :=
  (k.name, k.description, k.root, k.units.map ScriptUnit.file)

theorem Pack.ScriptPack.SameScripts.findings_eq {k k' : ScriptPack κ} (h : k.SameScripts k') :
    k'.findings = k.findings := by
  have hfiles : ∀ us : List ScriptUnit,
      us.map ScriptUnit.file = (us.map ScriptUnit.script).map Prod.fst := by
    intro us
    rw [List.map_map]
    rfl
  rw [ScriptPack.findings, ScriptPack.findings, hfiles, hfiles, ← h.name, ← h.description, ← h.root,
    ← h.units]

theorem Pack.map_findings_of_sameScripts {ks ks' : List (ScriptPack κ)}
    (h : List.Forall₂ ScriptPack.SameScripts ks ks') :
    ks'.map ScriptPack.findings = ks.map ScriptPack.findings := by
  induction h with
  | nil => rfl
  | cons hk _ ih => rw [List.map_cons, List.map_cons, hk.findings_eq, ih]

theorem Pack.exists_of_map_findings {ks ks' : List (ScriptPack κ)} {k : ScriptPack κ}
    (h : ks'.map ScriptPack.findings = ks.map ScriptPack.findings) (hk : k ∈ ks') :
    ∃ k₀ ∈ ks, k₀.findings = k.findings := by
  have hmem : k.findings ∈ ks'.map ScriptPack.findings := List.mem_map_of_mem hk
  rw [h] at hmem
  exact List.mem_map.mp hmem

namespace Manager

/-! ## The file at a path -/

/-- The file at a path, if it can be read and does not ask to be left out. -/
def fileAt? (t : Files.Tree) (root path : Files.Path) : Option ScriptFile :=
  match ScriptFile.read t root path with
  | .ok file => file
  | .error _ => none

section

variable {t : Files.Tree} {root path : Files.Path} {file : ScriptFile}

theorem fileAt?_eq_some_iff :
    fileAt? t root path = some file ↔ ScriptFile.read t root path = .ok (some file) := by
  unfold fileAt?
  rcases ScriptFile.read t root path with e | f <;> simp

theorem contains_of_read (h : ScriptFile.read t root path = .ok (some file)) :
    t.contains path = true := by
  unfold ScriptFile.read at h
  split at h
  · cases h
  · split at h
    · cases h
    · next contents hcontents =>
      unfold Files.Tree.read at hcontents
      rw [Files.Tree.contains]
      cases hfind : t.find path with
      | error e =>
        rw [hfind] at hcontents
        cases hcontents
      | ok n => rfl

end

/-! ## The pack in a directory -/

def pushFiles (k : ScriptPack κ) (files : List ScriptFile) : ScriptPack κ :=
  files.foldl (fun k file => k.push (.ofFile file)) k

def packIn (m : Manager ω γ κ) (t : Files.Tree) (directory : Files.Path) : ScriptPack κ :=
  let name := m.packName directory
  pushFiles (.empty name ((m.settingsOf name).description.getD "") directory)
    ((t.filesWithExtension directory m.plan.engine.extension).filterMap (fileAt? t directory))

theorem letInAll_eq_pushFiles (t : Files.Tree) (root : Files.Path) (d : Nat)
    (paths : List Files.Path) (k : ScriptPack κ) (w : World ω γ) :
    (letInAll t root d paths (k, w)).1 = pushFiles k (paths.filterMap (fileAt? t root)) := by
  induction paths generalizing k w with
  | nil => rfl
  | cons path paths ih =>
    rcases hread : ScriptFile.read t root path with e | _ | file
    · have hnone : fileAt? t root path = none := by rw [fileAt?, hread]
      rw [List.filterMap_cons_none hnone, letInAll, letIn, hread]
      exact ih k _
    · have hnone : fileAt? t root path = none := by rw [fileAt?, hread]
      rw [List.filterMap_cons_none hnone, letInAll, letIn, hread]
      exact ih k _
    · have hsome : fileAt? t root path = some file := by rw [fileAt?, hread]
      rw [List.filterMap_cons_some hsome, letInAll, letIn, hread]
      exact ih _ w

theorem pushFiles_eq_pushAll (k : ScriptPack κ) (files : List ScriptFile) :
    pushFiles k files = k.pushAll (files.map .ofFile) :=
  List.foldl_map.symm

theorem perm_units_pushFiles (k : ScriptPack κ) (files : List ScriptFile) :
    (pushFiles k files).units.Perm (k.units ++ files.map .ofFile) := by
  rw [pushFiles_eq_pushAll]
  exact k.perm_units_pushAll _

theorem pushFiles_heading (k : ScriptPack κ) (files : List ScriptFile) :
    (pushFiles k files).name = k.name ∧ (pushFiles k files).description = k.description ∧
      (pushFiles k files).root = k.root := by
  rw [pushFiles_eq_pushAll, ScriptPack.pushAll_eq]
  exact ⟨rfl, rfl, rfl⟩

theorem name_packIn (m : Manager ω γ κ) (t : Files.Tree) (directory : Files.Path) :
    (m.packIn t directory).name = m.packName directory :=
  (pushFiles_heading _ _).1

theorem description_packIn (m : Manager ω γ κ) (t : Files.Tree) (directory : Files.Path) :
    (m.packIn t directory).description =
      (m.settingsOf (m.packName directory)).description.getD "" :=
  (pushFiles_heading _ _).2.1

theorem root_packIn (m : Manager ω γ κ) (t : Files.Tree) (directory : Files.Path) :
    (m.packIn t directory).root = directory :=
  (pushFiles_heading _ _).2.2

section

variable {m m' : Manager ω γ κ}

theorem packName_congr (plan : m'.plan = m.plan) : m'.packName = m.packName := by
  funext directory
  rw [packName, packName, plan]

theorem settingsOf_congr (plan : m'.plan = m.plan) : m'.settingsOf = m.settingsOf := by
  funext name
  rw [settingsOf, settingsOf, plan]

/-- What a directory holds depends on what the manager was told only. -/
theorem packIn_congr (plan : m'.plan = m.plan) : m'.packIn = m.packIn := by
  funext t directory
  rw [packIn, packIn, packName_congr plan, settingsOf_congr plan, plan]

end

/-! ## One look into a directory -/

section

variable (m : Manager ω γ κ) (t : Files.Tree) (directory : Files.Path) (w : World ω γ)

theorem discoverPack_of_enabled (h : (m.settingsOf (m.packName directory)).enabled = true) :
    (m.discoverPack t directory w).1 =
      { m with packs := replacePack (m.packIn t directory) m.packs } := by
  simp only [discoverPack, if_pos h, letInAll_eq_pushFiles]
  rfl

theorem discoverPack_of_disabled (h : (m.settingsOf (m.packName directory)).enabled = false) :
    (m.discoverPack t directory w).1 =
      { m with packs := m.packs.filter fun k => k.name ≠ m.packName directory } := by
  simp only [discoverPack, h, Bool.false_eq_true, if_false]

end

/-! ## Packs in their places -/

section

variable {k : ScriptPack κ} {ks : List (ScriptPack κ)}

theorem replacePack_of_not_mem (h : k.name ∉ ks.map ScriptPack.name) :
    replacePack k ks = ks ++ [k] := by
  induction ks with
  | nil => rfl
  | cons q ks ih =>
    obtain ⟨hq, hks⟩ := not_or.mp (mt List.mem_cons.mpr h)
    rw [replacePack, if_neg (Ne.symm hq), ih hks, List.cons_append]

/-- A pack of the name is replaced where it stands. -/
theorem replacePack_eq_set (distinct : (ks.map ScriptPack.name).Nodup) {i : Nat}
    {q : ScriptPack κ} (hq : ks[i]? = some q) (hname : q.name = k.name) :
    replacePack k ks = ks.set i k := by
  induction ks generalizing i with
  | nil => cases hq
  | cons p ks ih =>
    obtain ⟨hp, hks⟩ := List.nodup_cons.mp distinct
    unfold replacePack
    cases i with
    | zero =>
      cases hq
      rw [if_pos hname, List.set_cons_zero]
    | succ i =>
      have hmem : q.name ∈ ks.map ScriptPack.name :=
        List.mem_map_of_mem (List.mem_of_getElem? hq)
      have hne : p.name ≠ k.name := by
        rintro heq
        rw [← hname] at heq
        exact hp (heq ▸ hmem)
      rw [if_neg hne, List.set_cons_succ, ih hks hq]

theorem map_name_replacePack : (replacePack k ks).map ScriptPack.name =
    if k.name ∈ ks.map ScriptPack.name then ks.map ScriptPack.name
    else ks.map ScriptPack.name ++ [k.name] := by
  induction ks with
  | nil => rfl
  | cons q ks ih =>
    unfold replacePack
    by_cases hq : q.name = k.name
    · simp [hq]
    · rw [if_neg hq, List.map_cons, ih, List.map_cons]
      have hiff : k.name ∈ q.name :: ks.map ScriptPack.name ↔ k.name ∈ ks.map ScriptPack.name := by
        simp [Ne.symm hq]
      simp only [hiff]
      split <;> rfl

theorem find?_replacePack : (replacePack k ks).find? (fun q => q.name = k.name) = some k := by
  induction ks with
  | nil => simp [replacePack]
  | cons q ks ih =>
    unfold replacePack
    split
    · simp
    · next hq =>
      rw [List.find?_cons_of_neg (by simpa using hq)]
      exact ih

/-- Besides the new pack there are the packs of other names. -/
theorem mem_replacePack_of_distinct (distinct : (ks.map ScriptPack.name).Nodup)
    {k' : ScriptPack κ} (h : k' ∈ replacePack k ks) : k' = k ∨ (k' ∈ ks ∧ k'.name ≠ k.name) := by
  induction ks with
  | nil => exact .inl (List.mem_singleton.mp h)
  | cons q ks ih =>
    obtain ⟨hq, hks⟩ := List.nodup_cons.mp distinct
    unfold replacePack at h
    split at h
    · next hname =>
      rcases List.mem_cons.mp h with h | h
      · exact .inl h
      · refine .inr ⟨List.mem_cons_of_mem _ h, fun heq => hq ?_⟩
        rw [hname, ← heq]
        exact List.mem_map_of_mem h
    · next hname =>
      rcases List.mem_cons.mp h with rfl | h
      · exact .inr ⟨List.mem_cons_self, hname⟩
      · rcases ih hks h with h | ⟨h, hne⟩
        · exact .inl h
        · exact .inr ⟨List.mem_cons_of_mem _ h, hne⟩

end

/-! ## Loads -/

theorem findings_load {m m' : Manager ω γ κ} {r : Runner ω γ} {w w' : World ω γ}
    (h : m.load r w = some (m', w')) :
    m'.packs.map ScriptPack.findings = m.packs.map ScriptPack.findings := by
  obtain ⟨packs, p, hp, rfl, -⟩ := load_eq_some h
  have hloaded : packs.map ScriptPack.findings =
      (preparePacks m.plan m.packs).map ScriptPack.findings :=
    Pack.map_findings_of_sameScripts (sameScripts_of_loadPacks hp)
  have hprepared : (preparePacks m.plan m.packs).map ScriptPack.findings =
      m.packs.map ScriptPack.findings := by
    have hunit : ∀ u : ScriptUnit, (u.prepare m.plan.preprocessor).file = u.file := by
      intro u
      unfold ScriptUnit.prepare
      split <;> rfl
    rw [preparePacks, List.map_map]
    refine List.map_congr_left fun k _ => ?_
    simp [ScriptPack.findings, Function.comp_def, hunit]
  exact hloaded.trans hprepared

end Manager

end PackHost
