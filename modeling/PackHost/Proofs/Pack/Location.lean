import PackHost.Pack.ScriptFile
import PackHost.Proofs.Files.Write

/-!
# Locations and paths

The location of a file is what its path has below the root of the pack. It leads back: joined to the
root, it has the components of the path. So one location does not stand for two files of a pack. The
main statement is `locationOf_invertible`.
-/

namespace PackHost

namespace Files

/-! ## What comes behind a root -/

variable {cs ds : List Component}

/-- Behind the start of a path there are names and `..` only. -/
theorem Written.inner_rest (h : Written (cs ++ ds)) (hne : cs ≠ []) : ∀ c ∈ ds, c.Inner := by
  intro c hc
  obtain ⟨before, after, rfl⟩ := List.append_of_mem hc
  have hsplit : cs ++ (before ++ c :: after) = cs ++ before ++ [c] ++ after := by simp
  rw [hsplit] at h
  exact h.init.inner_last fun hnil => hne (List.append_eq_nil_iff.mp hnil).1

theorem segments_texts (h : ∀ c ∈ cs, c.Inner) :
    (splitAtAll '/' ("/".intercalate (cs.map Component.text)).toList).filterMap Path.segment? =
      cs := by
  by_cases hnil : cs = []
  · subst hnil
    rfl
  · rw [splitAtAll_texts hnil fun c hc => (h c hc).chars.2.1, filterMap_texts h]

theorem isAbsolute_texts (h : ∀ c ∈ cs, c.Inner) :
    (⟨"/".intercalate (cs.map Component.text)⟩ : Path).isAbsolute = false := by
  by_cases hnil : cs = []
  · subst hnil
    rfl
  · obtain ⟨-, hhead, -⟩ := pathOf_plain hnil fun c hc => ⟨(h c hc).chars.1, (h c hc).chars.2.1⟩
    exact beq_eq_false_iff_ne.mpr hhead

/-- The components of a path, joined, are a path with these components; a root at the start is then
followed by a second separator, which does not count. -/
theorem components_texts (h : Written cs) :
    (⟨"/".intercalate (cs.map Component.text)⟩ : Path).components = cs := by
  by_cases hnil : cs = []
  · subst hnil
    rfl
  cases cs with
  | nil => exact absurd rfl hnil
  | cons c inner =>
    by_cases hroot : c = .root
    · subst hroot
      have hinner : ∀ c ∈ inner, c.Inner :=
        Written.inner_rest h (List.cons_ne_nil .root [])
      cases inner with
      | nil => rfl
      | cons d inner =>
        have htext : ("/".intercalate ((.root :: d :: inner).map Component.text)).toList =
            '/' :: '/' :: ("/".intercalate ((d :: inner).map Component.text)).toList := by
          rw [List.map_cons, List.map_cons, String.intercalate_cons_cons, String.toList_append,
            String.toList_append]
          rfl
        have hlead : ∀ rest : List Char, Path.lead ('/' :: rest) = [.root] := fun rest => rfl
        have hempty : Path.segment? [] = none := rfl
        rw [Path.components_eq, htext, hlead, splitAtAll, if_pos rfl, splitAtAll, if_pos rfl,
          List.filterMap_cons_none hempty, List.filterMap_cons_none hempty, segments_texts hinner]
        rfl
    · have hpath : Tree.pathOf (c :: inner) =
          ⟨"/".intercalate ((c :: inner).map Component.text)⟩ := by
        cases c <;> first | rfl | exact absurd rfl hroot
      rw [← hpath]
      exact (components_pathOf h (List.cons_ne_nil _ _)).1

namespace Path

variable {root path : Path} {location : String}

theorem dropPrefix?_eq_some_iff {rest : List Component} :
    dropPrefix? cs ds = some rest ↔ ds = cs ++ rest := by
  constructor
  · intro h
    induction cs generalizing ds with
    | nil => exact Option.some.inj h
    | cons c cs ih =>
      cases ds with
      | nil => cases h
      | cons d ds =>
        unfold dropPrefix? at h
        split at h
        · next hcd => rw [hcd, ih h, List.cons_append]
        · cases h
  · rintro rfl
    exact dropPrefix?_append cs rest

theorem locationIn?_eq_some_iff :
    root.locationIn? path = some location ↔
      ∃ rest, path.components = root.components ++ rest ∧
        location = "/".intercalate (rest.map Component.text) := by
  rw [locationIn?, Option.map_eq_some_iff]
  constructor
  · rintro ⟨rest, hrest, hlocation⟩
    exact ⟨rest, dropPrefix?_eq_some_iff.mp hrest, hlocation.symm⟩
  · rintro ⟨rest, hrest, hlocation⟩
    exact ⟨rest, dropPrefix?_eq_some_iff.mpr hrest, hlocation.symm⟩

theorem isSome_locationIn? :
    (root.locationIn? path).isSome = true ↔ root.components <+: path.components := by
  rw [Option.isSome_iff_exists]
  constructor
  · rintro ⟨location, h⟩
    obtain ⟨rest, hrest, -⟩ := locationIn?_eq_some_iff.mp h
    exact ⟨rest, hrest.symm⟩
  · rintro ⟨rest, hrest⟩
    exact ⟨_, locationIn?_eq_some_iff.mpr ⟨rest, hrest.symm, rfl⟩⟩

/-- **The location leads back to the path.** -/
theorem components_join_location (h : root.locationIn? path = some location) :
    (root.join ⟨location⟩).components = path.components := by
  obtain ⟨rest, hrest, rfl⟩ := locationIn?_eq_some_iff.mp h
  have hwritten : Written (root.components ++ rest) := hrest ▸ written_components path
  by_cases hempty : root.text = ""
  · -- the empty root has no components, and what is joined to it is taken as it is
    have hnone : root.components = [] := by
      rw [components_eq, hempty]
      rfl
    have hjoin : ∀ q : Path, root.join q = q := by
      intro q
      rw [join]
      split
      · rfl
      · rw [if_pos (.inl hempty), hempty, String.empty_append]
    rw [hnone, List.nil_append] at hrest hwritten
    rw [hjoin, hrest, components_texts hwritten]
  · have hinner := hwritten.inner_rest (components_ne_nil hempty)
    rw [components_join_relative hempty (isAbsolute_texts hinner), segments_texts hinner, hrest]

theorem components_eq_of_location {path' : Path} (h : root.locationIn? path = some location)
    (h' : root.locationIn? path' = some location) : path.components = path'.components :=
  (components_join_location h).symm.trans (components_join_location h')

end Path

end Files

namespace Pack

open Files

variable {root path : Path} {location : String}

theorem locationOf_eq_ok_iff :
    locationOf root path = .ok location ↔ root.locationIn? path = some location := by
  unfold locationOf
  cases root.locationIn? path <;> simp

theorem locationOf_outside (h : ¬ root.components <+: path.components) :
    locationOf root path = .error (.outside path root) := by
  have hnone : root.locationIn? path = none := by
    rw [← Option.not_isSome_iff_eq_none, Path.isSome_locationIn?]
    exact h
  rw [locationOf, hnone]

namespace ScriptFile

variable {t : Tree} {file : ScriptFile}

/-- A file that was read has its path and the location of this path. -/
theorem read_eq_ok_some (h : read t root path = .ok (some file)) :
    file.path = path ∧ root.locationIn? path = some file.location := by
  unfold read at h
  split at h
  · cases h
  · next location hlocation =>
    rw [locationOf_eq_ok_iff] at hlocation
    split at h
    · cases h
    · split at h
      · cases h
      · unfold ofText at h
        split at h
        · cases h
        · split at h
          · cases h
          · cases h
            exact ⟨rfl, hlocation⟩

theorem read_outside (t : Tree) (h : ¬ root.components <+: path.components) :
    read t root path = .error (.outside path root) := by
  rw [read, locationOf_outside h]

end ScriptFile

/-- **Locations are invertible.** A path has a location in a pack exactly if the components of the
root are the first ones of the path; any other path is refused as outside, whatever the file tree
holds. Joined to the root, the location has the components of the path. So paths with the same
location are the same path, and a location stands for one file of the pack only. -/
theorem locationOf_invertible (root path : Path) :
    ((∃ location, locationOf root path = .ok location) ↔ root.components <+: path.components) ∧
    (¬ root.components <+: path.components → locationOf root path = .error (.outside path root) ∧
      ∀ t, ScriptFile.read t root path = .error (.outside path root)) ∧
    (∀ location, locationOf root path = .ok location →
      (root.join ⟨location⟩).components = path.components) ∧
    (∀ path' location, locationOf root path = .ok location →
      locationOf root path' = .ok location → path.same path' = true) ∧
    ∀ path' t t' file file', ScriptFile.read t root path = .ok (some file) →
      ScriptFile.read t' root path' = .ok (some file') → file.location = file'.location →
        path.same path' = true := by
  simp only [locationOf_eq_ok_iff, Path.same_iff]
  refine ⟨?_, fun h => ⟨locationOf_outside h, fun t => ScriptFile.read_outside t h⟩,
    fun location h => Path.components_join_location h,
    fun path' location h h' => Path.components_eq_of_location h h', ?_⟩
  · rw [← Option.isSome_iff_exists, Path.isSome_locationIn?]
  · intro path' t t' file file' h h' hlocation
    obtain ⟨-, hfile⟩ := ScriptFile.read_eq_ok_some h
    obtain ⟨-, hfile'⟩ := ScriptFile.read_eq_ok_some h'
    rw [← hlocation] at hfile'
    exact Path.components_eq_of_location hfile hfile'

/-- A root with a leading dot, an inner one and separators that do not count, and a path that goes
up again behind the root; without the leading dot the path is outside. -/
theorem locationOf_invertible_sample :
    let root : Path := ⟨"./a/./b//"⟩
    let path : Path := ⟨".//a/b/../c/./x.word"⟩
    locationOf root path = .ok "../c/x.word" ∧
    (root.join ⟨"../c/x.word"⟩).components = path.components ∧
    path.same ⟨"./a/b/../c/x.word/"⟩ = true ∧
    locationOf root ⟨"a/b/../c/x.word"⟩ = .error (.outside ⟨"a/b/../c/x.word"⟩ root) := by
  intro root path
  have hlocation : locationOf root path = .ok "../c/x.word" := by decide +kernel
  have hother : locationOf root ⟨"./a/b/../c/x.word/"⟩ = .ok "../c/x.word" := by decide +kernel
  have houtside : ¬ root.components <+: Path.components ⟨"a/b/../c/x.word"⟩ := by decide +kernel
  obtain ⟨-, -, hjoin, hsame, -⟩ := locationOf_invertible root path
  exact ⟨hlocation, hjoin _ hlocation, hsame _ _ hlocation hother,
    ((locationOf_invertible root _).2.1 houtside).1⟩

end Pack

end PackHost
