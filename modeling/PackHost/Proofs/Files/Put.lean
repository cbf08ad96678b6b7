import PackHost.Proofs.Files.Walk

/-!
# Trees with one entry more

Where a look-up stops without finding anything, an entry can be put (`follow_vacant`). Afterwards
every look-up that succeeded before leads to the same place (`follow_put`), so what was a directory
stays one, and the new entry is found where it was put.
-/

namespace PackHost.Files

/-! ## Places for an entry -/

namespace Node

variable {root n : Node} {here place rest : List String} {name : String}
  {entries : List (String × Node)}

/-- The place is in a directory, and there is nothing or a file at it. -/
inductive Vacant : List String → Node → Prop
  | here {name : String} {entries : List (String × Node)} :
      (∀ n, Table.get? name entries = some n → ∃ contents modified, n = .file contents modified) →
      Vacant [name] (.directory entries)
  | inside {name : String} {rest : List String} {entries inner : List (String × Node)} :
      Table.get? name entries = some (.directory inner) → Vacant rest (.directory inner) →
      Vacant (name :: rest) (.directory entries)

theorem Vacant.exists_directory (h : Vacant place root) : ∃ entries, root = .directory entries := by
  cases h <;> exact ⟨_, rfl⟩

theorem Vacant.concat (h : root.at? here = some (.directory entries))
    (hname : ∀ n, Table.get? name entries = some n →
      ∃ contents modified, n = .file contents modified) : Vacant (here ++ [name]) root := by
  induction here generalizing root with
  | nil =>
    cases h
    exact .here hname
  | cons first here ih =>
    obtain ⟨inner, hinner, hrest⟩ := Option.bind_eq_some_iff.mp h
    have hvacant := ih hrest
    obtain ⟨es, rfl⟩ := hvacant.exists_directory
    cases root with
    | directory es' => exact .inside hinner hvacant
    | file contents modified => cases hinner
    | link target => cases hinner

theorem at?_put_self (n : Node) (place : List String) (root : Node) :
    (put n place root).at? place = some n := by
  induction place generalizing root with
  | nil => rfl
  | cons name place ih =>
    simp only [put, at?, child?, Table.get?_insert_self, Option.bind_some]
    exact ih _

/-- What stands under a name before and after an entry was put somewhere: the entry has taken the
place of nothing or of a file, or there is what was there before, or a directory is still one. -/
inductive Turned (n : Node) : Option Node → Option Node → Prop
  | new {x : Option Node} :
      (∀ y, x = some y → ∃ contents modified, y = .file contents modified) → Turned n x (some n)
  | same (x : Option Node) : Turned n x x
  | directory {entries entries' : List (String × Node)} :
      Turned n (some (.directory entries)) (some (.directory entries'))

theorem Turned.link {target : Path} {y : Option Node} (h : Turned n (some (.link target)) y) :
    y = some (.link target) := by
  cases h with
  | new hfile =>
    obtain ⟨contents, modified, hlink⟩ := hfile _ rfl
    cases hlink
  | same => rfl

theorem Turned.exists_directory {y : Option Node} (h : Turned n (some (.directory entries)) y) :
    ∃ entries', y = some (.directory entries') := by
  cases h with
  | new hfile =>
    obtain ⟨contents, modified, hdirectory⟩ := hfile _ rfl
    cases hdirectory
  | same => exact ⟨_, rfl⟩
  | directory => exact ⟨_, rfl⟩

theorem Turned.not_link {x y : Option Node} (h : Turned n x y) (hn : ∀ target, n ≠ .link target)
    (hx : ∀ target, x ≠ some (.link target)) (target : Path) : y ≠ some (.link target) := by
  cases h with
  | new => exact fun hlink => hn target (Option.some.inj hlink)
  | same => exact hx target
  | directory => exact fun hlink => by cases hlink

/-- Directories stay directories when an entry is put at a vacant place. -/
theorem Vacant.directory_put (h : Vacant place root) (n : Node)
    (hhere : root.at? here = some (.directory entries)) :
    ∃ entries', (put n place root).at? here = some (.directory entries') ∧
      ∀ name, Turned n (Table.get? name entries) (Table.get? name entries') := by
  induction h generalizing here entries with
  | @here first es hvacant =>
    cases here with
    | nil =>
      cases hhere
      refine ⟨_, rfl, fun name => ?_⟩
      by_cases hname : name = first
      · subst hname
        rw [Table.get?_insert_self]
        exact .new hvacant
      · rw [Table.get?_insert_of_ne hname]
        exact .same _
    | cons x here =>
      obtain ⟨inner, hinner, hrest⟩ := Option.bind_eq_some_iff.mp hhere
      -- a file has nothing below it
      have hx : x ≠ first := by
        rintro rfl
        obtain ⟨contents, modified, rfl⟩ := hvacant inner hinner
        cases here <;> cases hrest
      refine ⟨entries, ?_, fun name => .same _⟩
      simp only [put, at?, child?, Table.get?_insert_of_ne hx]
      exact hhere
  | @inside first rest es inner hfound hvacant ih =>
    have hput : put n (first :: rest) (.directory es) =
        .directory (Table.insert first (put n rest (.directory inner)) es) := by
      simp only [put, hfound, Option.getD_some]
    rw [hput]
    cases here with
    | nil =>
      cases hhere
      refine ⟨_, rfl, fun name => ?_⟩
      by_cases hname : name = first
      · subst hname
        have hnil : at? [] (.directory inner) = some (.directory inner) := rfl
        obtain ⟨inner', hinner', -⟩ := ih hnil
        rw [Table.get?_insert_self, hfound, Option.some.inj hinner']
        exact .directory
      · rw [Table.get?_insert_of_ne hname]
        exact .same _
    | cons x here =>
      by_cases hx : x = first
      · subst hx
        simp only [at?, child?, hfound, Option.bind_some] at hhere
        obtain ⟨entries', hentries', hnames⟩ := ih hhere
        refine ⟨entries', ?_, hnames⟩
        simp only [at?, child?, Table.get?_insert_self, Option.bind_some]
        exact hentries'
      · refine ⟨entries, ?_, fun name => .same _⟩
        simp only [at?, child?, Table.get?_insert_of_ne hx]
        exact hhere

theorem exists_of_isDirectory (h : n.isDirectory = true) : ∃ entries, n = .directory entries := by
  cases n with
  | directory entries => exact ⟨entries, rfl⟩
  | file contents modified => cases h
  | link target => cases h

theorem exists_directory_dropLast (h : root.at? here = some (.directory entries)) :
    ∃ entries', root.at? here.dropLast = some (.directory entries') := by
  rcases List.eq_nil_or_concat' here with rfl | ⟨above, name, rfl⟩
  · exact ⟨entries, h⟩
  · rw [at?_append] at h
    obtain ⟨d, hd, hname⟩ := Option.bind_eq_some_iff.mp h
    rw [at?_singleton] at hname
    rw [List.dropLast_concat]
    cases d with
    | directory entries' => exact ⟨entries', hd⟩
    | file contents modified => cases hname
    | link target => cases hname

end Node

namespace Tree

variable {root n : Node} {last : Bool} {links : Nat} {here place q : List String}
  {cs : List Component} {y : Option Node}

theorem at?_concat {entries : List (String × Node)} (h : root.at? here = some (.directory entries))
    (name : String) : root.at? (here ++ [name]) = Table.get? name entries := by
  rw [Node.at?_append, h]
  exact Node.at?_singleton name _

/-- A look-up in a directory starts in a directory. -/
theorem exists_directory_startOf {entries : List (String × Node)}
    (h : root.at? here = some (.directory entries)) (cs : List Component) :
    ∃ entries', root.at? (startOf here cs) = some (.directory entries') := by
  have hroot : ∃ entries', root.at? [] = some (.directory entries') := by
    cases here with
    | nil => exact ⟨entries, h⟩
    | cons name here =>
      obtain ⟨entries', rfl⟩ := Node.exists_directory_of_at?_cons h
      exact ⟨entries', rfl⟩
  unfold startOf
  split
  · exact hroot
  · exact ⟨entries, h⟩

/-! ## Look-ups that stop -/

/-- **A look-up that ends at no directory** and follows links has found a place for an entry, unless
it never left the place where it started. -/
theorem follow_vacant (h : follow root last links here cs = .ok (place, y))
    (hstop : last = true ∨ y = none) (hy : ∀ entries, y ≠ some (.directory entries)) :
    Node.Vacant place root ∨
      (place = here ∧ root.at? here = y ∧ ∀ c ∈ cs, c = .root ∨ c = .current) := by
  fun_induction follow root last links here cs with
  | case1 links here =>
    obtain ⟨rfl, rfl⟩ := Prod.mk.inj (Except.ok.inj h)
    exact .inr ⟨rfl, rfl, List.forall_mem_nil _⟩
  | case2 links here cs ih =>
    rcases ih h with hvacant | ⟨hplace, hfound, hcs⟩
    · exact .inl hvacant
    · exact .inr ⟨hplace, hfound, List.forall_mem_cons.mpr ⟨.inl rfl, hcs⟩⟩
  | case3 links here cs ih =>
    rcases ih h with hvacant | ⟨hplace, hfound, hcs⟩
    · exact .inl hvacant
    · exact .inr ⟨hplace, hfound, List.forall_mem_cons.mpr ⟨.inr rfl, hcs⟩⟩
  | case4 links here cs entries hentries ih =>
    rcases ih h with hvacant | ⟨-, hfound, -⟩
    · exact .inl hvacant
    · obtain ⟨entries', hentries'⟩ := Node.exists_directory_dropLast hentries
      exact absurd (hfound.symm.trans hentries') (hy _)
  | case8 links here name entries hentries hnone =>
    obtain ⟨rfl, rfl⟩ := Prod.mk.inj (Except.ok.inj h)
    refine .inl (.concat hentries fun n hn => ?_)
    rw [hnone] at hn
    cases hn
  | case10 links here name cs entries hentries target htarget hend =>
    obtain ⟨-, rfl⟩ := Prod.mk.inj (Except.ok.inj h)
    rcases hstop with hlast | hnone
    · rw [hend.2] at hlast
      cases hlast
    · cases hnone
  | case12 here name cs entries hentries target htarget hgo links more ih =>
    rcases ih h with hvacant | ⟨-, hfound, -⟩
    · exact .inl hvacant
    · obtain ⟨entries', hentries'⟩ := exists_directory_startOf hentries more
      exact absurd (hfound.symm.trans hentries') (hy _)
  | case13 links here name entries hentries inner hinner hfound =>
    obtain ⟨rfl, rfl⟩ := Prod.mk.inj (Except.ok.inj h)
    refine .inl (.concat hentries fun n hn => ?_)
    rw [hfound] at hn
    cases hn
    cases inner with
    | file contents modified => exact ⟨contents, modified, rfl⟩
    | directory es => exact absurd rfl (hy es)
    | link target => exact (hinner target rfl).elim
  | case14 links here name cs entries hentries inner hinner hfound hcs hdirectory ih =>
    rcases ih h with hvacant | ⟨-, hthere, -⟩
    · exact .inl hvacant
    · obtain ⟨es, rfl⟩ := Node.exists_of_isDirectory hdirectory
      rw [at?_concat hentries, hfound] at hthere
      exact absurd hthere.symm (hy es)
  | case5 | case6 | case7 | case9 | case11 | case15 | case16 => cases h

/-! ## Look-ups after an entry was put -/

/-- Without a name and without `..` a look-up stays where it is. -/
theorem follow_of_idle (h : ∀ c ∈ cs, c = .root ∨ c = .current) :
    follow root last links here cs = .ok (here, root.at? here) := by
  induction cs with
  | nil => rw [follow]
  | cons c cs ih =>
    obtain ⟨hc, hcs⟩ := List.forall_mem_cons.mp h
    rcases hc with rfl | rfl
    · rw [follow]
      exact ih hcs
    · rw [follow]
      exact ih hcs

/-- The last name of a path leads to the entry of the name, if it is no link. -/
theorem follow_name {entries : List (String × Node)} (h : root.at? here = some (.directory entries))
    {name : String} (hlink : ∀ target, Table.get? name entries ≠ some (.link target)) :
    follow root last links here [.normal name] =
      .ok (here ++ [name], root.at? (here ++ [name])) := by
  rw [at?_concat h, follow, h]
  rcases hfound : Table.get? name entries with _ | ⟨contents, modified⟩ | inner | target
  · simp [hfound]
  · simp [hfound]
  · simp [hfound]
  · exact absurd hfound (hlink target)

/-- **Look-ups go on as before** after an entry that is no link was put at a vacant place. -/
theorem follow_put (vacant : Node.Vacant place root) (hn : ∀ target, n ≠ .link target)
    (h : follow root last links here cs = .ok (q, y)) :
    follow (Node.put n place root) last links here cs =
      .ok (q, (Node.put n place root).at? q) := by
  fun_induction follow root last links here cs with
  | case1 links here =>
    obtain ⟨rfl, -⟩ := Prod.mk.inj (Except.ok.inj h)
    rw [follow]
  | case2 links here cs ih =>
    rw [follow]
    exact ih h
  | case3 links here cs ih =>
    rw [follow]
    exact ih h
  | case4 links here cs entries hentries ih =>
    obtain ⟨entries', hentries', -⟩ := vacant.directory_put n hentries
    rw [follow, hentries']
    exact ih h
  | case8 links here name entries hentries hnone =>
    obtain ⟨rfl, -⟩ := Prod.mk.inj (Except.ok.inj h)
    obtain ⟨entries', hentries', hnames⟩ := vacant.directory_put n hentries
    refine follow_name hentries' ((hnames name).not_link hn fun target hlink => ?_)
    rw [hnone] at hlink
    cases hlink
  | case10 links here name cs entries hentries target htarget hend =>
    obtain ⟨rfl, rfl⟩ := hend
    obtain ⟨rfl, -⟩ := Prod.mk.inj (Except.ok.inj h)
    obtain ⟨entries', hentries', hnames⟩ := vacant.directory_put n hentries
    have hstays := (htarget ▸ hnames name).link
    rw [at?_concat hentries', hstays, follow, hentries']
    simp [hstays]
  | case12 here name cs entries hentries target htarget hgo links more ih =>
    obtain ⟨entries', hentries', hnames⟩ := vacant.directory_put n hentries
    have hstays := (htarget ▸ hnames name).link
    rw [follow, hentries']
    simp only [hstays, if_neg hgo]
    exact ih h
  | case13 links here name entries hentries inner hinner hfound =>
    obtain ⟨rfl, -⟩ := Prod.mk.inj (Except.ok.inj h)
    obtain ⟨entries', hentries', hnames⟩ := vacant.directory_put n hentries
    refine follow_name hentries' ((hnames name).not_link hn fun target hlink => ?_)
    rw [hfound] at hlink
    exact hinner target (Option.some.inj hlink)
  | case14 links here name cs entries hentries inner hinner hfound hcs hdirectory ih =>
    obtain ⟨entries', hentries', hnames⟩ := vacant.directory_put n hentries
    obtain ⟨es, rfl⟩ := Node.exists_of_isDirectory hdirectory
    obtain ⟨es', hes'⟩ := (hfound ▸ hnames name).exists_directory
    rw [follow, hentries']
    simp only [hes', if_neg hcs, Node.isDirectory, ↓reduceIte]
    exact ih h
  | case5 | case6 | case7 | case9 | case11 | case15 | case16 => cases h

/-! ## Look-ups on the way -/

/-- **On the way to a name or to `..` a look-up comes to a directory**, in which the name stands for
what the look-up finds, or for a link. -/
theorem follow_concat {c : Component} (hc : c = .parent ∨ ∃ name, c = .normal name)
    (h : follow root last links here (cs ++ [c]) = .ok (q, y)) :
    ∃ above entries, follow root true links here cs = .ok (above, some (.directory entries)) ∧
      ∀ name x, c = .normal name → y = some x → ∃ x', Table.get? name entries = some x' ∧
        (x' = x ∨ ∃ target, x' = .link target) := by
  generalize hds : cs ++ [c] = ds at h
  fun_induction follow root last links here ds generalizing cs with
  | case1 => cases List.append_eq_nil_iff.mp hds |>.2
  | case2 links here ds ih =>
    cases cs with
    | nil =>
      cases hds
      rcases hc with h | ⟨name, h⟩ <;> cases h
    | cons x cs =>
      cases hds
      rw [follow]
      exact ih rfl h
  | case3 links here ds ih =>
    cases cs with
    | nil =>
      cases hds
      rcases hc with h | ⟨name, h⟩ <;> cases h
    | cons x cs =>
      cases hds
      rw [follow]
      exact ih rfl h
  | case4 links here ds entries hentries ih =>
    cases cs with
    | nil =>
      cases hds
      exact ⟨here, entries, by rw [follow, hentries], fun name x hname => by cases hname⟩
    | cons x cs =>
      cases hds
      rw [follow, hentries]
      exact ih rfl h
  | case8 links here name entries hentries hnone =>
    cases cs with
    | nil =>
      cases hds
      refine ⟨here, entries, by rw [follow, hentries], fun _ x _ hx => ?_⟩
      obtain ⟨-, rfl⟩ := Prod.mk.inj (Except.ok.inj h)
      cases hx
    | cons x cs => cases (List.append_eq_nil_iff.mp (List.cons.inj hds).2).2
  | case10 links here name ds entries hentries target htarget hend =>
    obtain ⟨rfl, -⟩ := hend
    cases cs with
    | nil =>
      cases hds
      refine ⟨here, entries, by rw [follow, hentries], fun _ x hname _ => ?_⟩
      cases hname
      exact ⟨_, htarget, .inr ⟨target, rfl⟩⟩
    | cons x cs => cases (List.append_eq_nil_iff.mp (List.cons.inj hds).2).2
  | case12 here name ds entries hentries target htarget hgo links more =>
    rename_i ih
    cases cs with
    | nil =>
      cases hds
      refine ⟨here, entries, by rw [follow, hentries], fun _ x hname _ => ?_⟩
      cases hname
      exact ⟨_, htarget, .inr ⟨target, rfl⟩⟩
    | cons x cs =>
      obtain ⟨rfl, rfl⟩ := List.cons.inj hds
      obtain ⟨above, es, habove, hnames⟩ := ih (List.append_assoc more cs [c]) h
      refine ⟨above, es, ?_, hnames⟩
      rw [follow, hentries]
      simpa only [htarget, reduceCtorEq, and_false, ↓reduceIte] using habove
  | case13 links here name entries hentries inner hinner hfound =>
    cases cs with
    | nil =>
      cases hds
      refine ⟨here, entries, by rw [follow, hentries], fun _ x hname hx => ?_⟩
      obtain ⟨-, rfl⟩ := Prod.mk.inj (Except.ok.inj h)
      cases hname
      cases hx
      exact ⟨_, hfound, .inl rfl⟩
    | cons x cs => cases (List.append_eq_nil_iff.mp (List.cons.inj hds).2).2
  | case14 links here name ds entries hentries inner hinner hfound hcs hdirectory ih =>
    obtain ⟨es, rfl⟩ := Node.exists_of_isDirectory hdirectory
    cases cs with
    | nil =>
      cases hds
      exact absurd rfl hcs
    | cons x cs =>
      obtain ⟨rfl, rfl⟩ := List.cons.inj hds
      obtain ⟨above, es', habove, hnames⟩ := ih rfl h
      refine ⟨above, es', ?_, hnames⟩
      by_cases hnil : cs = []
      · subst hnil
        rw [follow, at?_concat hentries, hfound] at habove
        have hlink : ∀ target, Table.get? name entries ≠ some (.link target) := by
          intro target hlink
          rw [hfound] at hlink
          cases hlink
        rw [follow_name hentries hlink, at?_concat hentries, hfound]
        exact habove
      · rw [follow, hentries]
        simpa only [hfound, if_neg hnil, Node.isDirectory, ↓reduceIte] using habove
  | case5 | case6 | case7 | case9 | case11 | case15 | case16 => cases h

end Tree

end PackHost.Files
