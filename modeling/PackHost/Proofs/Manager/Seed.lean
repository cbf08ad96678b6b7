import PackHost.Proofs.Files.Write
import PackHost.Proofs.Manager.Exact
import PackHost.Proofs.Pack.Header

/-!
# The root directory

A root directory that is missing is made, and an example is written into it. Doing this again
changes nothing (`seed_again`), and an example that was written is a unit of the root pack
(`exists_example`).
-/

namespace PackHost.Manager

open Pack

variable {ω γ κ : Type} {m : Manager ω γ κ} {t t' t'' : Files.Tree}

def exampleName (m : Manager ω γ κ) : String := "script." ++ m.plan.engine.extension

def examplePath (m : Manager ω γ κ) : Files.Path := m.plan.directory.join ⟨m.exampleName⟩

def exampleContents (m : Manager ω γ κ) : ByteArray := m.plan.kind.exampleScript.toUTF8

/-! ## What seeding does -/

/-- The tree stays as it is, or the root is missing and cannot be made, or it is made and the
example cannot be written, or it is written. -/
theorem seed_cases (m : Manager ω γ κ) (t : Files.Tree) (w : World ω γ) :
    (t.contains m.plan.directory = true ∧ (m.seed t w).1 = t) ∨
    (t.contains m.plan.directory = false ∧ ∃ e,
      t.makeDirectories m.plan.directory = ((m.seed t w).1, some e)) ∨
    (t.contains m.plan.directory = false ∧
      t.makeDirectories m.plan.directory = ((m.seed t w).1, none) ∧
      ∃ e, (m.seed t w).1.write m.examplePath m.exampleContents = .error e) ∨
    (t.contains m.plan.directory = false ∧ ∃ t',
      t.makeDirectories m.plan.directory = (t', none) ∧
      t'.write m.examplePath m.exampleContents = .ok (m.seed t w).1) := by
  unfold seed
  simp only
  split
  · next h => exact .inl ⟨h, rfl⟩
  · next h =>
    have hmissing : t.contains m.plan.directory = false := Bool.not_eq_true _ ▸ h
    refine .inr ?_
    split
    · next t' e hmade => exact .inl ⟨hmissing, e, hmade⟩
    · next t' hmade =>
      refine .inr ?_
      split
      · next t'' hwritten => exact .inr ⟨hmissing, t', hmade, hwritten⟩
      · next e hwritten => exact .inl ⟨hmissing, hmade, e, hwritten⟩

section

variable (hroot : m.plan.directory.text ≠ "")
include hroot

theorem isDirectory_of_made (h : t.makeDirectories m.plan.directory = (t', none)) :
    t'.isDirectory m.plan.directory = true := by
  have hmakes := Files.Tree.makes_makeAll t m.plan.directory.components.reverse
  rw [← Files.Tree.makeDirectories, h] at hmakes
  have hne := Files.Path.components_ne_nil hroot
  have hwritten : Files.Written m.plan.directory.components.reverse.reverse := by
    rw [List.reverse_reverse]
    exact Files.written_components _
  have hthere := hmakes.isDirectory hwritten (mt List.reverse_eq_nil_iff.mp hne)
  rw [List.reverse_reverse] at hthere hwritten
  exact Files.Tree.isDirectory_congr (Files.components_pathOf hwritten hne).1.symm hroot hthere

theorem exists_inner_examplePath : ∃ c ∈ m.examplePath.components, c.Inner := by
  have hscript : '/' ∉ "script.".toList := by decide
  obtain ⟨part, parts, hsplit⟩ :=
    Files.exists_splitAtAll_append hscript m.plan.engine.extension.toList
  have hsegment : ∃ c, Files.Path.segment? ("script.".toList ++ part) = some c :=
    ⟨_, by simp [Files.Path.segment?]; rfl⟩
  obtain ⟨c, hc⟩ := hsegment
  have hpart : ("script.".toList ++ part) ∈ Files.splitAtAll '/' m.exampleName.toList := by
    rw [exampleName, String.toList_append, hsplit]
    exact List.mem_cons_self
  have hrelative : (⟨m.exampleName⟩ : Files.Path).isAbsolute = false := by
    rw [Files.Path.isAbsolute, exampleName, String.toList_append]
    rfl
  refine ⟨c, ?_, Files.inner_of_segment? (Files.not_mem_of_mem_splitAtAll hpart) hc⟩
  rw [examplePath, Files.Path.components_join_relative hroot hrelative]
  exact List.mem_append_right _ (List.mem_filterMap.mpr ⟨_, hpart, hc⟩)

/-- **Seeding again changes nothing**, also if the root could not be made. -/
theorem seed_again (t : Files.Tree) (w w' : World ω γ) :
    (m.seed (m.seed t w).1 w').1 = (m.seed t w).1 := by
  have hstays : ∀ {t : Files.Tree}, t.isDirectory m.plan.directory = true →
      (m.seed t w').1 = t := by
    intro t hthere
    rw [seed, if_pos (Files.Tree.contains_of_isDirectory hthere)]
  rcases m.seed_cases t w with ⟨hthere, hsame⟩ | ⟨hmissing, e, hmade⟩ | ⟨hmissing, hmade, -⟩ |
    ⟨hmissing, t', hmade, hwritten⟩
  · rw [hsame, seed, if_pos hthere]
  · have hmakes := Files.Tree.makes_makeAll t m.plan.directory.components.reverse
    rw [← Files.Tree.makeDirectories, hmade] at hmakes
    have hagain : ∀ t'' o, (m.seed t w).1.makeDirectories m.plan.directory = (t'', o) →
        t'' = (m.seed t w).1 := by
      intro t'' o hmade'
      have hmakes' := Files.Tree.makes_makeAll (m.seed t w).1 m.plan.directory.components.reverse
      rw [← Files.Tree.makeDirectories, hmade'] at hmakes'
      refine hmakes.again hmakes' ?_
      rw [List.reverse_reverse]
      exact Files.written_components _
    rcases m.seed_cases (m.seed t w).1 w' with ⟨-, hsame⟩ | ⟨-, e', hmade'⟩ | ⟨-, hmade', -⟩ |
      ⟨hmissing', t', hmade', -⟩
    · exact hsame
    · exact hagain _ _ hmade'
    · exact hagain _ _ hmade'
    · -- nothing was made now, so the root would have been there before
      have hthere := isDirectory_of_made hroot hmade'
      rw [hagain _ _ hmade'] at hthere
      rw [Files.Tree.contains_of_isDirectory hthere] at hmissing'
      cases hmissing'
  · exact hstays (isDirectory_of_made hroot hmade)
  · obtain ⟨c, hc, hinner⟩ := exists_inner_examplePath hroot
    exact hstays
      (Files.Tree.isDirectory_of_write hwritten hc hinner (isDirectory_of_made hroot hmade))

end

/-! ## The example as a unit -/

theorem fromUTF8?_toUTF8 (text : String) : String.fromUTF8? text.toUTF8 = some text := by
  rw [String.fromUTF8?, String.toUTF8_eq_toByteArray, dif_pos text.isValidUTF8]
  rfl

section

variable (hdot : '.' ∉ m.plan.engine.extension.toList)
  (hslash : '/' ∉ m.plan.engine.extension.toList)
include hdot hslash

/-- The example has a name with the extension of the engine. -/
theorem extensionOf?_example : Files.IsName m.exampleName ∧
    Files.Path.extensionOf? m.exampleName = some m.plan.engine.extension := by
  have hchars : m.exampleName.toList =
      's' :: 'c' :: 'r' :: 'i' :: 'p' :: 't' :: '.' :: m.plan.engine.extension.toList := by
    rw [exampleName, String.toList_append]
    rfl
  constructor
  · have hlonger : ∀ {name : String}, name.toList.length < 7 → m.exampleName ≠ name := by
      rintro name h rfl
      simp [hchars] at h
      omega
    exact ⟨hlonger (by decide), by simpa [hchars] using hslash, hlonger (by decide),
      hlonger (by decide)⟩
  · have hreversed : m.exampleName.toList.reverse =
        m.plan.engine.extension.toList.reverse ++ '.' :: "tpircs".toList := by
      rw [hchars]
      simp
    have hafter : m.exampleName.toList.reverse.takeWhile (· ≠ '.') =
        m.plan.engine.extension.toList.reverse := by
      rw [hreversed, List.takeWhile_append_of_pos]
      · simp
      · intro c hc
        exact decide_eq_true fun h => hdot (h ▸ List.mem_reverse.mp hc)
    have hlonger : m.plan.engine.extension.toList.reverse.length + 1 <
        m.exampleName.toList.reverse.length := by
      rw [hreversed]
      simp
    rw [Files.Path.extensionOf?]
    simp only [hafter]
    rw [if_pos hlonger, List.reverse_reverse, String.ofList_toList]

/-- **The example is a unit of the root pack**, if it was written. -/
theorem exists_example (hroot : m.plan.directory.text ≠ "")
    (hmade : t.makeDirectories m.plan.directory = (t', none))
    (hwritten : t'.write m.examplePath m.exampleContents = .ok t'') :
    ∃ u ∈ (m.packIn t'' m.plan.directory).units, u.file.path = m.examplePath ∧
      u.location = m.exampleName ∧ u.file.source = m.plan.kind.exampleScript := by
  obtain ⟨hname, hsome⟩ := extensionOf?_example hdot hslash
  obtain ⟨c, hc, hinner⟩ := exists_inner_examplePath hroot
  have hread := Files.Tree.read_of_write hwritten hc hinner
  have hmem := Files.Tree.mem_filesWithExtension_of_read hname
    (Files.Tree.isDirectory_of_write hwritten hc hinner (isDirectory_of_made hroot hmade)) hread hsome
  have hlocation : locationOf m.plan.directory m.examplePath = .ok m.exampleName := by
    have hbelow := Files.Path.locationIn?_below m.plan.directory (List.forall_mem_singleton.mpr hname)
    have hjoined : m.plan.directory.below [m.exampleName] = m.examplePath := rfl
    rw [locationOf, ← hjoined, hbelow, String.intercalate_singleton]
  obtain ⟨priority, hparsed⟩ : ∃ priority, ScriptFile.ofText m.exampleName m.examplePath
      m.plan.kind.exampleScript =
        .ok (some ⟨m.exampleName, m.examplePath, priority, m.plan.kind.exampleScript⟩) := by
    rw [ScriptFile.ofText, Header.read_exampleScript]
    exact ⟨0, rfl⟩
  have hfile : ScriptFile.read t'' m.plan.directory m.examplePath =
      .ok (some ⟨m.exampleName, m.examplePath, priority, m.plan.kind.exampleScript⟩) := by
    rw [ScriptFile.read, hlocation, hread]
    simp only [exampleContents, fromUTF8?_toUTF8]
    exact hparsed
  refine ⟨.ofFile ⟨m.exampleName, m.examplePath, priority, m.plan.kind.exampleScript⟩,
    (perm_units_packIn m t'' _).mem_iff.mpr (List.mem_map_of_mem ?_), rfl, rfl, rfl⟩
  exact List.mem_filterMap.mpr ⟨_, hmem, fileAt?_eq_some_iff.mpr hfile⟩

end

end PackHost.Manager
