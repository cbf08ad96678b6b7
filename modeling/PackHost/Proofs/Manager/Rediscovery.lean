import PackHost.Proofs.Manager.Seed

/-!
# Discovering again

A look into a directory changes the packs of one name (`packsAfter`). Looks for different names
commute as long as the packs keep their places, and of several looks for one name the last one
counts, so after all of them nothing is left to change (`settled_after`, `Settled.packsAfterAll`).
With the example that is written at most once this makes discovery idempotent
(`discover_idempotent`).
-/

namespace PackHost.Manager

open Pack

variable {ω γ κ : Type}

/-! ## Changes of packs -/

section

variable {k l : ScriptPack κ} {ks : List (ScriptPack κ)} {name : String}

theorem replacePack_absorb (h : k.name = l.name) :
    replacePack k (replacePack l ks) = replacePack k ks := by
  induction ks with
  | nil => simp [replacePack, h]
  | cons q ks ih =>
    by_cases hq : q.name = l.name
    · simp [replacePack, hq, h]
    · have hq' : q.name ≠ k.name := h ▸ hq
      simp only [replacePack, if_neg hq, if_neg hq', ih]

theorem replacePack_comm (h : k.name ≠ l.name) (hk : k.name ∈ ks.map ScriptPack.name) :
    replacePack k (replacePack l ks) = replacePack l (replacePack k ks) := by
  induction ks with
  | nil => cases hk
  | cons q ks ih =>
    by_cases hq : q.name = k.name
    · have hql : q.name ≠ l.name := hq ▸ h
      simp only [replacePack, if_pos hq, if_neg hql, if_neg h]
    · by_cases hql : q.name = l.name
      · simp only [replacePack, if_neg hq, if_pos hql, if_neg h.symm]
      · have hrest : k.name ∈ ks.map ScriptPack.name :=
          (List.mem_cons.mp hk).resolve_left (Ne.symm hq)
        simp only [replacePack, if_neg hq, if_neg hql, ih hrest]

theorem filter_replacePack_of_ne (h : k.name ≠ name) :
    (replacePack k ks).filter (fun q => q.name ≠ name) =
      replacePack k (ks.filter fun q => q.name ≠ name) := by
  induction ks with
  | nil => simp [replacePack, h]
  | cons q ks ih =>
    by_cases hq : q.name = k.name
    · have hname : q.name ≠ name := hq ▸ h
      simp [replacePack, hq, h]
    · by_cases hname : q.name = name
      · simpa [replacePack, hq, hname, Ne.symm h] using ih
      · simpa [replacePack, hq, hname] using ih

theorem find?_replacePack_of_ne (h : k.name ≠ name) :
    (replacePack k ks).find? (fun q => q.name = name) = ks.find? fun q => q.name = name := by
  induction ks with
  | nil => simp [replacePack, h]
  | cons q ks ih =>
    unfold replacePack
    by_cases hq : q.name = k.name
    · simp [hq, h]
    · rw [if_neg hq, List.find?_cons, List.find?_cons, ih]

end

/-! ## Looks into directories -/

def packsAfter (m : Manager ω γ κ) (t : Files.Tree) (directory : Files.Path)
    (ks : List (ScriptPack κ)) : List (ScriptPack κ) :=
  if (m.settingsOf (m.packName directory)).enabled then replacePack (m.packIn t directory) ks
  else ks.filter fun k => k.name ≠ m.packName directory

def packsAfterAll (m : Manager ω γ κ) (t : Files.Tree) (us : List Files.Path)
    (ks : List (ScriptPack κ)) : List (ScriptPack κ) :=
  us.foldl (fun ks u => m.packsAfter t u ks) ks

section

variable {m m' : Manager ω γ κ} {t : Files.Tree}

theorem packsAfterAll_congr (plan : m'.plan = m.plan) : m'.packsAfterAll = m.packsAfterAll := by
  funext t us ks
  simp only [packsAfterAll, packsAfter, packName_congr plan, settingsOf_congr plan,
    packIn_congr plan]

theorem packs_discoverPack (m : Manager ω γ κ) (t : Files.Tree) (u : Files.Path)
    (w : World ω γ) : (m.discoverPack t u w).1.packs = m.packsAfter t u m.packs := by
  unfold packsAfter
  split
  · next h => rw [discoverPack_of_enabled m t u w h]
  · next h => rw [discoverPack_of_disabled m t u w (Bool.not_eq_true _ ▸ h)]

theorem packs_discoverAll (t : Files.Tree) (us : List Files.Path) (m : Manager ω γ κ)
    (w : World ω γ) : (discoverAll t us (m, w)).1.packs = m.packsAfterAll t us m.packs := by
  induction us generalizing m w with
  | nil => rfl
  | cons u us ih =>
    have hrest := ih (m.discoverPack t u w).1 (m.discoverPack t u w).2
    rw [packsAfterAll_congr (m.plan_discoverPack t u w), packs_discoverPack] at hrest
    exact hrest

theorem packs_discover (m : Manager ω γ κ) (t : Files.Tree) (w : World ω γ) :
    (m.discover t w).1.packs =
      m.packsAfterAll (m.seed t w).1 (m.plan.directory :: m.plan.extra) m.packs :=
  packs_discoverAll _ _ m _

variable {u v : Files.Path} {us : List Files.Path} {ks : List (ScriptPack κ)} {name : String}

theorem mem_names_packsAfter (enabled : (m.settingsOf (m.packName u)).enabled = true) :
    m.packName u ∈ (m.packsAfter t u ks).map ScriptPack.name := by
  rw [packsAfter, if_pos enabled, map_name_replacePack, name_packIn]
  split
  · assumption
  · exact List.mem_append_right _ (List.mem_singleton_self _)

/-- A look for one name keeps the packs of another name. -/
theorem mem_names_packsAfter_of_ne (hne : m.packName v ≠ name)
    (h : name ∈ ks.map ScriptPack.name) : name ∈ (m.packsAfter t v ks).map ScriptPack.name := by
  unfold packsAfter
  split
  · rw [map_name_replacePack]
    split
    · exact h
    · exact List.mem_append_left _ h
  · obtain ⟨k, hk, rfl⟩ := List.mem_map.mp h
    exact List.mem_map_of_mem (List.mem_filter.mpr ⟨hk, by simpa using hne.symm⟩)

theorem find?_packsAfter_of_ne (hne : m.packName v ≠ name) :
    (m.packsAfter t v ks).find? (fun k => k.name = name) = ks.find? fun k => k.name = name := by
  unfold packsAfter
  split
  · exact find?_replacePack_of_ne (by rw [name_packIn]; exact hne)
  · rw [List.find?_filter]
    congr 1
    funext k
    by_cases hk : k.name = name
    · simp [hk, Ne.symm hne]
    · simp [hk]

/-- **Of two looks for one name the last one counts.** -/
theorem packsAfter_absorb (h : m.packName v = m.packName u) :
    m.packsAfter t v (m.packsAfter t u ks) = m.packsAfter t v ks := by
  unfold packsAfter
  rw [h]
  split
  · exact replacePack_absorb (by rw [name_packIn, name_packIn, h])
  · rw [List.filter_filter]
    simp only [Bool.and_self]

/-- **Looks for different names commute**, if the pack of one of them has its place already. -/
theorem packsAfter_comm (hne : m.packName v ≠ m.packName u)
    (hu : (m.settingsOf (m.packName u)).enabled = true → m.packName u ∈ ks.map ScriptPack.name) :
    m.packsAfter t v (m.packsAfter t u ks) = m.packsAfter t u (m.packsAfter t v ks) := by
  have hnameu := name_packIn m t u
  have hnamev := name_packIn m t v
  unfold packsAfter
  split <;> split
  · next hv hu' =>
    refine (replacePack_comm ?_ ?_).symm
    · rw [hnameu, hnamev]
      exact hne.symm
    · rw [hnameu]
      exact hu hu'
  · exact (filter_replacePack_of_ne (hnamev ▸ hne)).symm
  · exact filter_replacePack_of_ne (hnameu ▸ hne.symm)
  · rw [List.filter_filter, List.filter_filter]
    simp only [Bool.and_comm]

/-! ## Packs that are settled -/

/-- For each name, the last look of several changes nothing. -/
def Settled (m : Manager ω γ κ) (t : Files.Tree) (ks : List (ScriptPack κ)) :
    List Files.Path → Prop
  | [] => True
  | u :: us => Settled m t ks us ∧
      ((∀ v ∈ us, m.packName v ≠ m.packName u) → m.packsAfter t u ks = ks)

/-- A look that changes nothing does so after looks for other names. -/
theorem packsAfter_packsAfterAll (h : m.packsAfter t u ks = ks)
    (hne : ∀ v ∈ us, m.packName v ≠ m.packName u) :
    m.packsAfter t u (m.packsAfterAll t us ks) = m.packsAfterAll t us ks := by
  induction us generalizing ks with
  | nil => exact h
  | cons v us ih =>
    obtain ⟨hv, hus⟩ := List.forall_mem_cons.mp hne
    have hagain : m.packsAfter t u (m.packsAfter t v ks) = m.packsAfter t v ks := by
      rw [← packsAfter_comm hv fun enabled => ?_, h]
      rw [← h]
      exact mem_names_packsAfter enabled
    exact ih hagain hus

/-- **After looks into several directories the packs are settled.** -/
theorem settled_after (us : List Files.Path) (ks : List (ScriptPack κ)) :
    m.Settled t (m.packsAfterAll t us ks) us := by
  induction us generalizing ks with
  | nil => trivial
  | cons u us ih => exact ⟨ih _, packsAfter_packsAfterAll (packsAfter_absorb rfl)⟩

/-- Settled packs have all the names that are looked for. -/
theorem Settled.mem_names (h : m.Settled t ks us) (hu : u ∈ us)
    (enabled : (m.settingsOf (m.packName u)).enabled = true) :
    m.packName u ∈ ks.map ScriptPack.name := by
  induction us generalizing u with
  | nil => cases hu
  | cons v us ih =>
    by_cases hlater : ∃ v' ∈ us, m.packName v' = m.packName u
    · obtain ⟨v', hv', hname⟩ := hlater
      rw [← hname] at enabled ⊢
      exact ih h.1 hv' enabled
    · have hnone : ∀ v' ∈ us, m.packName v' ≠ m.packName u := fun v' hv' heq =>
        hlater ⟨v', hv', heq⟩
      rcases List.mem_cons.mp hu with rfl | hu
      · rw [← h.2 hnone]
        exact mem_names_packsAfter enabled
      · exact absurd rfl (hnone u hu)

/-- A look whose name recurs later is as good as none. -/
theorem packsAfterAll_packsAfter (hlater : ∃ v ∈ us, m.packName v = m.packName u)
    (hu : (m.settingsOf (m.packName u)).enabled = true → m.packName u ∈ ks.map ScriptPack.name) :
    m.packsAfterAll t us (m.packsAfter t u ks) = m.packsAfterAll t us ks := by
  induction us generalizing ks with
  | nil => simp at hlater
  | cons v us ih =>
    unfold packsAfterAll at ih ⊢
    rw [List.foldl_cons, List.foldl_cons]
    by_cases hname : m.packName v = m.packName u
    · rw [packsAfter_absorb hname]
    · rw [packsAfter_comm hname hu]
      refine ih ?_ fun enabled => mem_names_packsAfter_of_ne hname (hu enabled)
      obtain ⟨v', hv', hname'⟩ := hlater
      rcases List.mem_cons.mp hv' with rfl | hv'
      · exact absurd hname' hname
      · exact ⟨v', hv', hname'⟩

/-- **Settled packs stay as they are.** -/
theorem Settled.packsAfterAll (h : m.Settled t ks us) : m.packsAfterAll t us ks = ks := by
  induction us with
  | nil => rfl
  | cons u us ih =>
    obtain ⟨hus, hu⟩ := h
    by_cases hlater : ∃ v ∈ us, m.packName v = m.packName u
    · obtain ⟨v, hv, hname⟩ := hlater
      have hthere := fun enabled => hus.mem_names hv (hname ▸ enabled)
      rw [hname] at hthere
      exact (packsAfterAll_packsAfter ⟨v, hv, hname⟩ hthere).trans (ih hus)
    · have hlast := hu fun v hv heq => hlater ⟨v, hv, heq⟩
      have hrest := ih hus
      rw [← hlast] at hrest ⊢
      rw [Manager.packsAfterAll, List.foldl_cons, packsAfter_absorb rfl]
      exact hrest

theorem find?_packsAfterAll (hne : ∀ v ∈ us, m.packName v ≠ name) :
    (m.packsAfterAll t us ks).find? (fun k => k.name = name) =
      ks.find? fun k => k.name = name := by
  induction us generalizing ks with
  | nil => rfl
  | cons v us ih =>
    obtain ⟨hv, hus⟩ := List.forall_mem_cons.mp hne
    calc (m.packsAfterAll t us (m.packsAfter t v ks)).find? (fun k => k.name = name)
      _ = (m.packsAfter t v ks).find? (fun k => k.name = name) := ih hus
      _ = ks.find? fun k => k.name = name := find?_packsAfter_of_ne hv

end

/-- **Discovery is idempotent.** Let the path of the root not be empty, and let the tree, the packs
that the manager has, its settings and its further directories be any. A second discovery, whatever
the world is like then, changes neither the tree nor the packs. The first one leaves the tree alone
if there is something at the root. If there is nothing, the root can be made and the example can be
written, then the tree is the one with the example, and the example is a unit of the root pack,
unless the root pack is disabled or a further directory has its name; the extension of the engine
is one that a name can have, without a dot and without a separator. -/
theorem discover_idempotent {m : Manager ω γ κ} (root : m.plan.directory.text ≠ "")
    (t : Files.Tree) (w : World ω γ) :
    (∀ w', ((m.discover t w).1.discover (m.discover t w).2.1 w').2.1 = (m.discover t w).2.1 ∧
      ((m.discover t w).1.discover (m.discover t w).2.1 w').1.packs = (m.discover t w).1.packs) ∧
    (t.contains m.plan.directory = true → (m.discover t w).2.1 = t) ∧
    (∀ made written, t.contains m.plan.directory = false →
      t.makeDirectories m.plan.directory = (made, none) →
      made.write m.examplePath m.exampleContents = .ok written →
      (m.discover t w).2.1 = written ∧
      ('.' ∉ m.plan.engine.extension.toList → '/' ∉ m.plan.engine.extension.toList →
        (m.settingsOf (m.packName m.plan.directory)).enabled = true →
        (∀ u ∈ m.plan.extra, m.packName u ≠ m.packName m.plan.directory) →
        ∃ k u, (m.discover t w).1.pack? (m.packName m.plan.directory) = some k ∧
          k.root = m.plan.directory ∧ u ∈ k.units ∧ u.file.path = m.examplePath ∧
          u.location = m.exampleName ∧ u.file.source = m.plan.kind.exampleScript)) := by
  have hplan := m.plan_discover t w
  refine ⟨fun w' => ?_, fun hthere => ?_, fun made written hmissing hmade hwritten => ?_⟩
  · have hseed : ((m.discover t w).1.seed (m.discover t w).2.1 w').1 = (m.discover t w).2.1 :=
      (seed_congr hplan _ w' w').trans (seed_again root t w w')
    refine ⟨hseed, ?_⟩
    rw [packs_discover, hseed, packsAfterAll_congr hplan, hplan, packs_discover]
    exact (settled_after _ _).packsAfterAll
  · exact congrArg Prod.fst (if_pos hthere)
  · have hseed : (m.seed t w).1 = written := by
      rw [seed, if_neg (by simp [hmissing]), hmade]
      simp only
      rw [examplePath, exampleName, exampleContents] at hwritten
      rw [hwritten]
    refine ⟨hseed, fun hdot hslash enabled hextra => ?_⟩
    obtain ⟨u, hu, hfile⟩ := exists_example hdot hslash root hmade hwritten
    refine ⟨m.packIn written m.plan.directory, u, ?_, root_packIn _ _ _, hu, hfile⟩
    rw [pack?, packs_discover, hseed, packsAfterAll, List.foldl_cons, ← packsAfterAll,
      find?_packsAfterAll hextra, packsAfter, if_pos enabled, ← name_packIn m written]
    exact find?_replacePack

/-! ## A missing root -/

namespace Sample

def branched : Plan Unit Empty (Table Global) := { plan with extra := [⟨"scripts/more"⟩] }

def bare : Files.Tree := ⟨.directory [], [], 0⟩

def cleared : Files.Tree := ⟨.directory [("scripts", .directory [])], [], 0⟩

theorem components_branched : Files.Path.components ⟨"scripts"⟩ = [.normal "scripts"] ∧
    (create branched 0).examplePath.components = [.normal "scripts", .normal "script.word"] ∧
    Files.Tree.wantsDirectory (create branched 0).examplePath = false := by
  decide

theorem locate_bare (last : Bool) : bare.locate last ⟨"scripts"⟩ = .ok (["scripts"], none) := by
  simp [Files.Tree.locate, Files.Tree.follow, Files.Tree.wantsDirectory, Files.Tree.startOf,
    Files.Node.at?, Table.get?, bare, components_branched]

theorem makeDirectories_bare : bare.makeDirectories ⟨"scripts"⟩ = (cleared, none) := by
  have hmade : bare.makeDirectory ⟨"scripts"⟩ = .ok cleared := by
    have htrimmed : String.ofList ("scripts".toList.reverse.dropWhile (· == '/')).reverse =
        "scripts" := rfl
    simp only [Files.Tree.makeDirectory, htrimmed]
    rw [if_neg (by decide), locate_bare]
    rfl
  rw [Files.Tree.makeDirectories, components_branched.1]
  simp only [List.reverse_singleton, Files.Tree.makeAll]
  rw [show Files.Tree.pathOf [.normal "scripts"] = ⟨"scripts"⟩ by decide, hmade]

theorem write_cleared : ∃ written,
    cleared.write (create branched 0).examplePath (create branched 0).exampleContents = .ok written := by
  obtain ⟨-, hcomponents, hplain⟩ := components_branched
  have htext : (create branched 0).examplePath.text ≠ "" := by decide
  have hlocate : cleared.locate true (create branched 0).examplePath =
      .ok (["scripts", "script.word"], none) := by
    simp [Files.Tree.locate, Files.Tree.follow, Files.Tree.startOf, Files.Node.at?,
      Files.Node.child?, Files.Node.isDirectory, Table.get?, cleared, hcomponents, hplain, htext]
  simp only [Files.Tree.write, hlocate, hplain]
  exact ⟨_, rfl⟩

end Sample

/-- A root that is missing is made once, and its pack has the example at once; the further directory
in the root is missing, and stays so. -/
theorem discover_idempotent_sample :
    let first := (create Sample.branched 0).discover Sample.bare Sample.world
    let second := first.1.discover first.2.1 Sample.world
    second.2.1 = first.2.1 ∧ second.1.packs = first.1.packs ∧
      ∃ k u, first.1.pack? "scripts" = some k ∧ u ∈ k.units ∧ u.location = "script.word" ∧
        u.file.source = ScriptKind.server.exampleScript := by
  have hname : (create Sample.branched 0).packName ⟨"scripts"⟩ = "scripts" ∧
      (create Sample.branched 0).packName ⟨"scripts/more"⟩ = "more" := by decide
  obtain ⟨hagain, -, hseeded⟩ := discover_idempotent (m := create Sample.branched 0)
    (by decide) Sample.bare Sample.world
  obtain ⟨written, hwritten⟩ := Sample.write_cleared
  have hmissing : Sample.bare.contains ⟨"scripts"⟩ = false := by
    rw [Files.Tree.contains, Files.Tree.find, Sample.locate_bare]
  obtain ⟨-, hexample⟩ := hseeded _ written hmissing Sample.makeDirectories_bare hwritten
  have hextra : ∀ u ∈ (create Sample.branched 0).plan.extra,
      (create Sample.branched 0).packName u ≠ (create Sample.branched 0).packName ⟨"scripts"⟩ := by
    intro u hu
    cases List.mem_singleton.mp hu
    rw [hname.1, hname.2]
    decide
  obtain ⟨k, u, hpack, -, hu, -, hlocation, hsource⟩ :=
    hexample (by decide) (by decide) rfl hextra
  obtain ⟨htree, hpacks⟩ := hagain Sample.world
  rw [show (create Sample.branched 0).plan.directory = ⟨"scripts"⟩ from rfl, hname.1] at hpack
  exact ⟨htree, hpacks, k, u, hpack, hu, hlocation, hsource⟩

end PackHost.Manager
