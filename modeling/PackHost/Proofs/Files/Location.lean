import PackHost.Proofs.Files.Walk

/-!
# Locations

The location of a file is what follows the root of its pack, written with `/` between the names. It
tells the names, so different files of a pack have different locations (`Path.locationIn?_below`,
`Path.text_names_injective`).
-/

namespace PackHost.Files

/-! ## Splitting and joining -/

theorem splitAtAll_eq_splitOn (separator : Char) (cs : List Char) :
    splitAtAll separator cs = cs.splitOn separator := by
  induction cs with
  | nil => rfl
  | cons c cs ih =>
    rw [splitAtAll, List.splitOn_cons_eq_if_modifyHead, ih]
    by_cases hc : c = separator
    · simp [hc]
    · rw [if_neg hc, if_neg (by simpa using hc)]
      cases hsplit : cs.splitOn separator with
      | nil => exact absurd (ih.trans hsplit) (splitAtAll_ne_nil separator cs)
      | cons s ss => rfl

theorem splitAtAll_intercalate {separator : Char} {parts : List (List Char)} (hne : parts ≠ [])
    (h : ∀ part ∈ parts, separator ∉ part) :
    splitAtAll separator ([separator].intercalate parts) = parts := by
  rw [splitAtAll_eq_splitOn, List.splitOn_intercalate separator h hne]

namespace Path

theorem dropPrefix?_append (cs ds : List Component) : dropPrefix? cs (cs ++ ds) = some ds := by
  induction cs with
  | nil => rfl
  | cons c cs ih => simpa [dropPrefix?] using ih

/-- What lies below a root behind some names has the location that joins them. -/
theorem locationIn?_below (root : Path) {names : List String} (h : ∀ name ∈ names, IsName name) :
    root.locationIn? (root.below names) = some ("/".intercalate names) := by
  have htexts : (names.map Component.normal).map Component.text = names := by
    rw [List.map_map]
    exact List.map_id names
  rw [locationIn?, components_below root h, dropPrefix?_append, Option.map_some, htexts]

theorem splitAtAll_names {names : List String} (hne : names ≠ [])
    (h : ∀ name ∈ names, IsName name) :
    splitAtAll '/' ("/".intercalate names).toList = names.map String.toList := by
  rw [String.toList_intercalate]
  refine splitAtAll_intercalate (mt List.map_eq_nil_iff.mp hne) fun part hpart => ?_
  obtain ⟨name, hname, rfl⟩ := List.mem_map.mp hpart
  exact (h name hname).undivided

/-- **A location tells the names.** -/
theorem text_names_injective {names names' : List String} (h : ∀ name ∈ names, IsName name)
    (h' : ∀ name ∈ names', IsName name) (heq : "/".intercalate names = "/".intercalate names') :
    names = names' := by
  -- the empty location is the one of no names, since no name is empty
  have hempty : ∀ {names : List String}, (∀ name ∈ names, IsName name) →
      "/".intercalate names = "" → names = [] := by
    intro names h hnames
    by_contra hne
    have hsplit := splitAtAll_names hne h
    rw [hnames] at hsplit
    obtain ⟨name, rest, rfl⟩ := List.exists_cons_of_ne_nil hne
    have hname : name.toList = [] := (List.cons.inj hsplit).1.symm
    exact (h name List.mem_cons_self).nonempty (String.toList_injective hname)
  by_cases hne : names = []
  · subst hne
    exact (hempty h' heq.symm).symm
  by_cases hne' : names' = []
  · subst hne'
    exact hempty h heq
  have hsplit := splitAtAll_names hne h
  rw [heq, splitAtAll_names hne' h'] at hsplit
  exact (List.map_injective_iff.mpr (fun _ _ => String.toList_injective) hsplit).symm

end Path

end PackHost.Files
