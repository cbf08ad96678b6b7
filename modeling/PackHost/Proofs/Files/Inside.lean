import PackHost.Proofs.Files.Growth

/-!
# Directories in a directory

A path with one name more leads into the directory that the path leads to, if there is one
(`follow_inside`), and else nowhere, whatever the name (`follow_astray`). So of several directories
in a directory each one is made on its own (`makeDirectories_inside`), and if the directory itself
cannot be made, none of them can (`makeDirectories_astray`).
-/

namespace PackHost.Files

namespace Tree

variable {root n : Node} {last : Bool} {links : Nat} {here place : List String}
  {cs : List Component} {entries : List (String × Node)} {name : String}

/-! ## One name more -/

/-- **Behind a directory the look-up ends at the name**, if it stands for no link that is
followed. -/
theorem follow_inside (h : Leads root true links here cs place (.directory entries))
    (hlink : last = true → ∀ target, Table.get? name entries ≠ some (.link target)) :
    follow root last links here (cs ++ [.normal name]) =
      .ok (place ++ [name], Table.get? name entries) := by
  cases hfound : Table.get? name entries with
  | some n =>
    refine follow_of_leads (h.child hfound fun target heq => ?_)
    cases last with
    | false => rfl
    | true => exact absurd (heq ▸ hfound) (hlink rfl target)
  | none =>
    have hends : ∀ {links here}, root.at? here = some (Node.directory entries) →
        follow root last links here [.normal name] = .ok (here ++ [name], none) := by
      intro links here hhere
      rw [follow_name hhere (by simp [hfound]), at?_concat hhere, hfound]
    generalize hd : Node.directory entries = d at h
    induction h with
    | here hn => exact hends (hd ▸ hn)
    | root _ ih =>
      rw [List.cons_append, follow]
      exact ih hd
    | current _ ih =>
      rw [List.cons_append, follow]
      exact ih hd
    | parent hentries _ ih =>
      rw [List.cons_append, follow, hentries]
      exact ih hd
    | entry hentries hfound' _ =>
      subst hd
      rw [List.cons_append, follow, hentries]
      simpa [hfound', Node.isDirectory] using hends ((at?_concat hentries _).trans hfound')
    | link hentries hfound' _ _ ih =>
      rw [List.cons_append, follow, hentries]
      simpa [hfound', List.append_assoc] using ih hd
    | directory hentries hfound' hcs _ ih =>
      rw [List.cons_append, follow, hentries]
      simpa [hfound', Node.isDirectory] using ih hd

theorem startOf_concat (here : List String) (cs : List Component) (name : String) :
    startOf here (cs ++ [.normal name]) = startOf here cs :=
  startOf_append_normal here cs [name]

/-! ## One directory -/

theorem wantsDirectory_of_segments {p : Path} {part : List Char}
    (h : (splitAtAll '/' p.text.toList).getLast? = some part) (hempty : part ≠ [])
    (hcurrent : part ≠ ['.']) : wantsDirectory p = false := by
  rw [wantsDirectory, Bool.or_eq_false_iff]
  constructor
  · rw [List.head?_reverse, beq_eq_false_iff_ne]
    exact getLast?_ne_of_segments h hempty
  · rw [← Bool.not_eq_true, List.isPrefixOf_iff_prefix]
    rintro ⟨rest, hrest⟩
    have htext : p.text.toList = rest.reverse ++ '/' :: ['.'] := by
      rw [← List.reverse_reverse p.text.toList, ← hrest]
      simp
    have hdot : splitAtAll '/' ['.'] = [['.']] := rfl
    rw [htext, splitAtAll_append, hdot, List.getLast?_concat] at h
    exact hcurrent (Option.some.inj h).symm

theorem getLast?_segments {ds : List Component} (h : ∀ c ∈ ds, '/' ∉ c.text.toList)
    (hname : IsName name) :
    (splitAtAll '/' ("/".intercalate
      ((ds ++ [Component.normal name]).map Component.text)).toList).getLast? =
      some name.toList := by
  rw [splitAtAll_texts (by simp), List.map_append, List.map_singleton, List.getLast?_concat]
  · rfl
  · intro c hc
    rcases List.mem_append.mp hc with hc | hc
    · exact h c hc
    · rw [List.mem_singleton.mp hc]
      exact hname.undivided

/-- A path that ends with a name does not ask for a directory. -/
theorem wantsDirectory_pathOf (h : Written (cs ++ [.normal name])) (hname : IsName name) :
    wantsDirectory (pathOf (cs ++ [.normal name])) = false := by
  have hempty : name.toList ≠ [] := fun h => hname.nonempty (String.toList_injective h)
  have hcurrent : name.toList ≠ ['.'] := fun h => hname.current (String.toList_injective h)
  refine wantsDirectory_of_segments ?_ hempty hcurrent
  obtain ⟨start, inner, rfl, hstart, hinner⟩ := h.init
  have hplain : ∀ c ∈ inner, '/' ∉ c.text.toList := fun c hc => (hinner c hc).chars.2.1
  rcases hstart with rfl | rfl | rfl
  · have hpath : pathOf ([] ++ inner ++ [.normal name]) =
        ⟨"/".intercalate ((inner ++ [Component.normal name]).map Component.text)⟩ := by
      cases inner with
      | nil => rfl
      | cons c inner => rcases hinner c List.mem_cons_self with rfl | ⟨_, -, rfl⟩ <;> rfl
    rw [hpath]
    exact getLast?_segments hplain hname
  · have htext : (pathOf ([.root] ++ inner ++ [.normal name])).text.toList =
        '/' :: ("/".intercalate ((inner ++ [Component.normal name]).map Component.text)).toList := by
      rw [List.append_assoc, List.singleton_append, pathOf, String.toList_append]
      rfl
    rw [htext, splitAtAll, if_pos rfl, List.getLast?_cons, getLast?_segments hplain hname]
    rfl
  · have hpath : pathOf ([.current] ++ inner ++ [.normal name]) =
      ⟨"/".intercalate ((.current :: inner ++ [Component.normal name]).map Component.text)⟩ := rfl
    rw [hpath]
    exact getLast?_segments (List.forall_mem_cons.mpr ⟨by decide, hplain⟩) hname

variable {t t' : Tree} {p : Path}

theorem written_join (p : Path) (hname : IsName name) :
    Written (p.components ++ [.normal name]) := by
  rw [← Path.components_join p hname]
  exact written_components _

theorem locate_pathOf (t : Tree) (p : Path) (hname : IsName name) :
    t.locate false (pathOf (p.components ++ [.normal name])) =
      follow t.root false linkLimit (startOf t.home p.components)
        (p.components ++ [.normal name]) := by
  have hwritten := written_join p hname
  obtain ⟨hcomponents, -⟩ := components_pathOf hwritten (by simp)
  have htext : (pathOf (p.components ++ [.normal name])).text ≠ "" :=
    text_ne_empty_of_components (by rw [hcomponents]; simp)
  rw [locate, if_neg htext]
  simp only [hcomponents, startOf_concat, wantsDirectory_pathOf hwritten hname, Bool.or_false,
    Bool.false_eq_true, false_and, ↓reduceIte]
  split
  · next heq => exact heq.symm
  · rfl

/-- **A directory is made in a directory** if nothing has its name. -/
theorem makeDirectory_inside (h : t.LeadsTo true p.components place (.directory entries))
    (hname : IsName name) : t.makeDirectory (pathOf (p.components ++ [.normal name])) =
      match Table.get? name entries with
      | none => .ok (t.put (place ++ [name]) (.directory []))
      | some _ => .error .exists := by
  have hunfollowed : false = true → ∀ target, Table.get? name entries ≠ some (.link target) := nofun
  rw [makeDirectory_pathOf (written_join p hname) (by simp), locate_pathOf t p hname,
    follow_inside h hunfollowed]
  cases Table.get? name entries <;> rfl

theorem makeDirectories_join (t : Tree) (p : Path) (hname : IsName name) :
    t.makeDirectories (p.join ⟨name⟩) = t.makeAll (.normal name :: p.components.reverse) := by
  rw [makeDirectories, Path.components_join p hname, List.reverse_append, List.reverse_singleton]
  rfl

/-- Where the path leads to a directory, only the last one is made. -/
theorem makeDirectories_inside (h : t.LeadsTo true p.components place (.directory entries))
    (hname : IsName name) : t.makeDirectories (p.join ⟨name⟩) =
      match Table.get? name entries with
      | none => (t.put (place ++ [name]) (.directory []), none)
      | some _ => t.settleDirectory (pathOf (p.components ++ [.normal name])) .exists := by
  rw [makeDirectories_join t p hname, makeAll, List.reverse_cons, List.reverse_reverse]
  simp only [makeDirectory_inside h hname]
  cases Table.get? name entries <;> rfl

theorem leadsTo_join (hname : IsName name) {last : Bool} {n : Node} :
    t.LeadsTo last (p.join ⟨name⟩).components place n ↔
      Leads t.root last linkLimit (startOf t.home p.components)
        (p.components ++ [.normal name]) place n := by
  rw [LeadsTo, Path.components_join p hname, startOf_concat]

/-- A directory that is made where nothing is. -/
theorem adds_directory (hname : IsName name) {entries : List (String × Node)}
    (hleads : t.LeadsTo true p.components place (.directory entries))
    (hnothing : Table.get? name entries = none) :
    t.Adds (place ++ [name]) (t.put (place ++ [name]) (.directory [])) ∧
    (t.put (place ++ [name]) (.directory [])).LeadsTo true (p.join ⟨name⟩).components
      (place ++ [name]) (.directory []) := by
  have hvacant : Node.Vacant (place ++ [name]) t.root := by
    refine .concat hleads.at? fun n hn => ?_
    rw [hnothing] at hn
    cases hn
  have hnew : ∀ target, Node.directory [] ≠ .link target := nofun
  refine ⟨⟨hvacant, (at?_concat hleads.at? name).trans hnothing, ⟨_, hnew, rfl⟩, rfl⟩, ?_⟩
  have hfollow := follow_inside hleads fun (_ : true = true) target hlink => by
    rw [hnothing] at hlink
    cases hlink
  have hput := follow_put hvacant hnew hfollow
  rw [Node.at?_put_self] at hput
  exact (leadsTo_join hname).mpr (leads_of_follow hput)

/-- A file that is written where nothing is. -/
theorem adds_file (hname : IsName name) {entries : List (String × Node)} {contents : ByteArray}
    (hleads : t.LeadsTo true p.components place (.directory entries))
    (hnothing : Table.get? name entries = none)
    (hwritten : t.write (p.join ⟨name⟩) contents = .ok t') : t.Adds (place ++ [name]) t' := by
  have hfollow := follow_inside hleads fun (_ : true = true) target hlink => by
    rw [hnothing] at hlink
    cases hlink
  have hcomponents := Path.components_join p hname
  have hlast : Component.normal name ∈ (p.join ⟨name⟩).components := by
    rw [hcomponents]
    exact List.mem_append_right _ (List.mem_singleton_self _)
  obtain ⟨place', y, hlocate, -, hvacant, rfl⟩ :=
    exists_place_of_write hwritten hlast (.inr ⟨name, hname, rfl⟩)
  obtain ⟨-, hthere⟩ := follow_of_locate hlocate
  rw [hcomponents, startOf_concat, Bool.true_or, hfollow] at hthere
  cases hthere
  have hnew : ∀ target, Node.file contents t.clock ≠ .link target := nofun
  exact ⟨hvacant, (at?_concat hleads.at? name).trans hnothing, ⟨_, hnew, rfl⟩, rfl⟩

end Tree

end PackHost.Files
