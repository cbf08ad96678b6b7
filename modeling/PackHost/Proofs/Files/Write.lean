import PackHost.Proofs.Files.Make
import PackHost.Proofs.Table

/-!
# Writing files

A file that was written can be read under its path, and directories are still there
(`Tree.read_of_write`, `Tree.isDirectory_of_write`). A file in a directory is met by a walk
below it, whatever else is in the tree (`Tree.mem_filesWithExtension_of_read`).
-/

namespace PackHost

namespace Files

variable {t t' : Tree} {p : Path}

/-! ## Components of joined paths -/

theorem Path.components_ne_nil (h : p.text ≠ "") : p.components ≠ [] := by
  intro hnil
  rw [components_eq, List.append_eq_nil_iff] at hnil
  obtain ⟨hlead, hsegments⟩ := hnil
  obtain ⟨s, ss, hsplit⟩ := List.exists_cons_of_ne_nil (splitAtAll_ne_nil '/' p.text.toList)
  have hrelative : p.text.toList.head? ≠ some '/' := by
    intro hhead
    simp [lead, hhead] at hlead
  have hcurrent : s ≠ ['.'] := by
    rintro rfl
    simp [lead, hrelative, hsplit] at hlead
  have hempty : s ≠ [] := by
    rintro rfl
    cases hchars : p.text.toList with
    | nil => exact h (String.toList_injective hchars)
    | cons c cs =>
      rw [hchars] at hsplit hrelative
      have hc : c ≠ '/' := fun h => hrelative (by rw [h]; rfl)
      rw [splitAtAll, if_neg hc] at hsplit
      split at hsplit <;> cases hsplit
  have hsome : Path.segment? s ≠ none := by
    unfold Path.segment?
    split
    · next h => rcases h with h | h <;> contradiction
    · split <;> exact fun h => by cases h
  rw [hsplit, List.filterMap_eq_nil_iff] at hsegments
  exact hsome (hsegments s List.mem_cons_self)

theorem exists_splitAtAll_append {separator : Char} {cs : List Char} (h : separator ∉ cs)
    (ds : List Char) :
    ∃ part parts, splitAtAll separator (cs ++ ds) = (cs ++ part) :: parts := by
  induction cs with
  | nil =>
    obtain ⟨part, parts, hsplit⟩ := List.exists_cons_of_ne_nil (splitAtAll_ne_nil separator ds)
    exact ⟨part, parts, hsplit⟩
  | cons c cs ih =>
    obtain ⟨hc, hcs⟩ := not_or.mp (mt List.mem_cons.mpr h)
    obtain ⟨part, parts, hsplit⟩ := ih hcs
    refine ⟨part, parts, ?_⟩
    rw [List.cons_append, splitAtAll, if_neg (Ne.symm hc), hsplit]
    rfl

/-! ## Writing -/

namespace Tree

variable {contents : ByteArray} {q : Path} {name extension : String}

/-- A file is put at a vacant place, if its path has a name or a `..` in it. -/
theorem exists_place_of_write (h : t.write p contents = .ok t') {c : Component}
    (hc : c ∈ p.components) (hname : c.Inner) :
    ∃ place y, t.locate true p = .ok (place, y) ∧ wantsDirectory p = false ∧
      Node.Vacant place t.root ∧
      t' = { t.put place (.file contents t.clock) with clock := t.clock + 1 } := by
  have hplace : ∃ place y, t.locate true p = .ok (place, y) ∧
      (∀ entries, y ≠ some (.directory entries)) ∧ wantsDirectory p = false ∧
      t' = { t.put place (.file contents t.clock) with clock := t.clock + 1 } := by
    unfold write at h
    split at h
    · cases h
    · cases h
    · next place y hfile hlocate =>
      split at h
      · cases h
      · next hwants =>
        cases h
        exact ⟨place, y, hlocate, fun entries hy => hfile entries (by rw [hy]),
          Bool.not_eq_true _ ▸ hwants, rfl⟩
  obtain ⟨place, y, hlocate, hy, hwants, rfl⟩ := hplace
  refine ⟨place, y, hlocate, hwants, ?_, rfl⟩
  rcases follow_vacant (follow_of_locate hlocate).2 (.inl (Bool.true_or _)) hy with
    hvacant | ⟨-, -, hidle⟩
  · exact hvacant
  · rcases hname with rfl | ⟨name, -, rfl⟩ <;> rcases hidle _ hc with h | h <;> cases h

theorem read_of_write (h : t.write p contents = .ok t') {c : Component} (hc : c ∈ p.components)
    (hname : c.Inner) : t'.read p = .ok contents := by
  obtain ⟨place, y, hlocate, hwants, hvacant, rfl⟩ := exists_place_of_write h hc hname
  obtain ⟨htext, hfollow⟩ := follow_of_locate hlocate
  have hput := follow_put (n := .file contents t.clock) hvacant (fun _ h => by cases h) hfollow
  rw [Node.at?_put_self] at hput
  have hfind : Tree.find { t.put place (.file contents t.clock) with clock := t.clock + 1 } p =
      .ok (.file contents t.clock) := by
    refine find_iff_leadsTo.mpr ⟨htext, fun h => ?_, place, leads_of_follow hput⟩
    rw [hwants] at h
    cases h
  rw [read, hfind]

/-- Directories are still there after a file was written. -/
theorem isDirectory_of_write (h : t.write p contents = .ok t') {c : Component}
    (hc : c ∈ p.components) (hname : c.Inner) (hq : t.isDirectory q = true) :
    t'.isDirectory q = true := by
  obtain ⟨place, y, -, -, hvacant, rfl⟩ := exists_place_of_write h hc hname
  exact isDirectory_put hvacant (fun _ h => by cases h) hq

/-! ## Finding what was written -/

/-- A file in a directory that can be read has an entry in it that is no directory. -/
theorem exists_entry_of_read {entries : List (String × Node)} (hname : IsName name)
    (hp : t.find p = .ok (.directory entries)) (hread : t.read (p.join ⟨name⟩) = .ok contents) :
    ∃ n, Table.get? name entries = some n ∧ n.isDirectory = false := by
  obtain ⟨htext, -, place, hleads⟩ := find_iff_leadsTo.mp hp
  obtain ⟨time, hfind⟩ : ∃ time, t.find (p.join ⟨name⟩) = .ok (.file contents time) := by
    unfold read at hread
    split at hread
    · next hfind =>
      cases hread
      exact ⟨_, hfind⟩
    · cases hread
    · cases hread
  obtain ⟨-, -, place', hleads'⟩ := find_iff_leadsTo.mp hfind
  have hfollow := follow_of_leads hleads'
  rw [Path.components_join p hname, startOf_append t.home (Path.components_ne_nil htext)] at hfollow
  obtain ⟨above, entries', habove, hentry⟩ := follow_concat (.inr ⟨name, rfl⟩) hfollow
  -- the directory on the way is the one that is found under the path
  have hsame := habove.symm.trans (follow_of_leads hleads)
  cases hsame
  obtain ⟨n, hn, rfl | ⟨target, rfl⟩⟩ := hentry name _ rfl rfl
  · exact ⟨_, hn, rfl⟩
  · exact ⟨_, hn, rfl⟩

/-- **A file in a directory is found by its extension**, if it can be read. -/
theorem mem_filesWithExtension_of_read (hname : IsName name) (hp : t.isDirectory p = true)
    (hread : t.read (p.join ⟨name⟩) = .ok contents)
    (hextension : Path.extensionOf? name = some extension) :
    p.join ⟨name⟩ ∈ t.filesWithExtension p extension := by
  obtain ⟨entries, hfind⟩ := isDirectory_iff_find.mp hp
  obtain ⟨n, hn, hfile⟩ := exists_entry_of_read hname hfind hread
  obtain ⟨place, n₀, hlocate⟩ := exists_locate_of_find hfind
  have hitself : (p.join ⟨name⟩, n) ∈ n.walk (p.join ⟨name⟩) := by
    cases n with
    | directory entries => cases hfile
    | file contents modified => exact List.mem_singleton_self _
    | link target => exact List.mem_singleton_self _
  have hwalk : (p.join ⟨name⟩, n) ∈ t.walk p := by
    rw [walk_eq, hlocate, hfind]
    refine List.mem_cons_of_mem _ ?_
    rw [Node.walkEntries_eq_flatMap]
    exact List.mem_flatMap.mpr ⟨_, Table.mem_of_get?_eq_some hn, hitself⟩
  have hextended : (p.join ⟨name⟩).extension? = some extension := by
    rw [Path.extension?, Path.fileName?, Path.components_join p hname, List.getLast?_concat]
    exact hextension
  unfold filesWithExtension
  rw [if_pos (contains_of_isDirectory hp), List.mem_mergeSort]
  refine List.mem_map.mpr ⟨_, List.mem_filter.mpr ⟨hwalk, ?_⟩, rfl⟩
  simp [hfile, hextended]

end Tree

end Files

end PackHost
