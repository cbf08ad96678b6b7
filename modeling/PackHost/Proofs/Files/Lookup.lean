import PackHost.Files.Tree

/-!
# Look-ups

`Leads` says step by step how a look-up arrives at something, and `follow_eq_ok_iff` that this is
what `Tree.follow` does. What is found depends on the components of the path, not on how it is
written (`Tree.find_unique`).
-/

namespace PackHost.Files

/-! ## Entries at a place -/

namespace Node

theorem at?_append (names rest : List String) (n : Node) :
    n.at? (names ++ rest) = (n.at? names).bind (at? rest) := by
  induction names generalizing n with
  | nil => rfl
  | cons name names ih =>
    rw [List.cons_append, at?, at?, Option.bind_assoc]
    congr 1
    exact funext ih

theorem at?_singleton (name : String) (n : Node) : n.at? [name] = n.child? name := by
  cases h : n.child? name <;> simp [at?, h]

end Node

namespace Tree

section

variable {root : Node} {last : Bool} {links : Nat} {here place : List String}
  {cs : List Component} {n : Node}

/-- Following the components from a place leads to an entry at another place, and on the way to at
most as many links as given. -/
inductive Leads (root : Node) (last : Bool) :
    Nat → List String → List Component → List String → Node → Prop
  | here {links : Nat} {here : List String} {n : Node} :
      root.at? here = some n → Leads root last links here [] here n
  | root {links : Nat} {here place : List String} {cs : List Component} {n : Node} :
      Leads root last links here cs place n → Leads root last links here (.root :: cs) place n
  | current {links : Nat} {here place : List String} {cs : List Component} {n : Node} :
      Leads root last links here cs place n → Leads root last links here (.current :: cs) place n
  | parent {links : Nat} {here place : List String} {cs : List Component} {n : Node}
      {entries : List (String × Node)} :
      root.at? here = some (.directory entries) →
      Leads root last links here.dropLast cs place n →
      Leads root last links here (.parent :: cs) place n
  | entry {links : Nat} {here : List String} {name : String} {n : Node}
      {entries : List (String × Node)} :
      root.at? here = some (.directory entries) → Table.get? name entries = some n →
      (∀ target, n = .link target → last = false) →
      Leads root last links here [.normal name] (here ++ [name]) n
  | link {links : Nat} {here place : List String} {name : String} {cs : List Component} {n : Node}
      {entries : List (String × Node)} {target : Path} :
      root.at? here = some (.directory entries) → Table.get? name entries = some (.link target) →
      (cs = [] → last = true) →
      Leads root last links (startOf here target.components) (target.components ++ cs) place n →
      Leads root last (links + 1) here (.normal name :: cs) place n
  | directory {links : Nat} {here place : List String} {name : String} {cs : List Component}
      {n : Node} {entries inner : List (String × Node)} :
      root.at? here = some (.directory entries) →
      Table.get? name entries = some (.directory inner) → cs ≠ [] →
      Leads root last links (here ++ [name]) cs place n →
      Leads root last links here (.normal name :: cs) place n

theorem leads_of_follow (h : follow root last links here cs = .ok (place, some n)) :
    Leads root last links here cs place n := by
  fun_induction follow root last links here cs with
  | case1 links here =>
    obtain ⟨rfl, hn⟩ := Prod.mk.inj (Except.ok.inj h)
    exact .here hn
  | case2 links here cs ih => exact .root (ih h)
  | case3 links here cs ih => exact .current (ih h)
  | case4 links here cs entries hentries ih => exact .parent hentries (ih h)
  | case8 links here name entries hentries hnone =>
    cases (Prod.mk.inj (Except.ok.inj h)).2
  | case10 links here name cs entries hentries target htarget hstop =>
    obtain ⟨rfl, rfl⟩ := hstop
    obtain ⟨rfl, hn⟩ := Prod.mk.inj (Except.ok.inj h)
    cases hn
    exact .entry hentries htarget fun _ _ => rfl
  | case12 here name cs entries hentries target htarget hgo links more ih =>
    refine .link hentries htarget (fun hcs => ?_) (ih h)
    cases last with
    | true => rfl
    | false => exact absurd ⟨hcs, rfl⟩ hgo
  | case13 links here name entries hentries inner hinner hfound =>
    obtain ⟨rfl, hn⟩ := Prod.mk.inj (Except.ok.inj h)
    cases hn
    exact .entry hentries hfound fun target hlink => (hinner target hlink).elim
  | case14 links here name cs entries hentries inner hinner hfound hcs hdirectory ih =>
    cases inner with
    | directory inner => exact .directory hentries hfound hcs (ih h)
    | file contents modified => cases hdirectory
    | link target => cases hdirectory
  | case5 | case6 | case7 | case9 | case11 | case15 | case16 => cases h

theorem follow_of_leads (h : Leads root last links here cs place n) :
    follow root last links here cs = .ok (place, some n) := by
  induction h with
  | here hn => rw [follow, hn]
  | root _ ih => rw [follow, ih]
  | current _ ih => rw [follow, ih]
  | parent hentries _ ih =>
    rw [follow, hentries]
    exact ih
  | @entry links here name n entries hentries hfound hlink =>
    rw [follow, hentries]
    cases n with
    | link target => simp [hfound, hlink target rfl]
    | file contents modified => simp [hfound]
    | directory inner => simp [hfound]
  | @link links here place name cs n entries target hentries hfound hlast _ ih =>
    have hgo : ¬(cs = [] ∧ last = false) := by
      rintro ⟨hcs, hfalse⟩
      rw [hlast hcs] at hfalse
      cases hfalse
    rw [follow, hentries]
    simp only [hfound, if_neg hgo]
    exact ih
  | directory hentries hfound hcs _ ih =>
    rw [follow, hentries]
    simp only [hfound, if_neg hcs]
    exact ih

/-- **What a look-up finds is where the steps lead.** -/
theorem follow_eq_ok_iff : follow root last links here cs = .ok (place, some n) ↔
    Leads root last links here cs place n :=
  ⟨leads_of_follow, follow_of_leads⟩

/-- The entry that is found stands at the place that is found. -/
theorem Leads.at? (h : Leads root last links here cs place n) : root.at? place = some n := by
  induction h with
  | here hn => exact hn
  | root _ ih => exact ih
  | current _ ih => exact ih
  | parent _ _ ih => exact ih
  | entry hentries hfound _ =>
    rw [Node.at?_append, hentries]
    simpa [Node.at?_singleton, Node.child?] using hfound
  | link _ _ _ _ ih => exact ih
  | directory _ _ _ _ ih => exact ih

/-- Behind a directory the look-up goes on to its entries. -/
theorem Leads.child {entries : List (String × Node)} {name : String}
    (h : Leads root true links here cs place (.directory entries))
    (hfound : Table.get? name entries = some n)
    (hlink : ∀ target, n = .link target → last = false) :
    Leads root last links here (cs ++ [.normal name]) (place ++ [name]) n := by
  generalize hd : Node.directory entries = d at h
  induction h with
  | here hn => exact .entry (hd ▸ hn) hfound hlink
  | root _ ih => exact .root (ih hd)
  | current _ ih => exact .current (ih hd)
  | parent hentries _ ih => exact .parent hentries (ih hd)
  | @entry links here name' n' entries' hentries hfound' _ =>
    subst hd
    refine .directory hentries hfound' (List.cons_ne_nil _ _) (.entry ?_ hfound hlink)
    rw [Node.at?_append, hentries]
    simpa [Node.at?_singleton, Node.child?] using hfound'
  | link hentries hfound' _ _ ih =>
    refine .link hentries hfound' (fun hnil => ?_) ?_
    · cases List.append_eq_nil_iff.mp hnil |>.2
    · have hleads := ih hd
      rwa [List.append_assoc] at hleads
  | directory hentries hfound' _ _ ih =>
    exact .directory hentries hfound' (by simp) (ih hd)

/-- Behind a directory the look-up goes on to what lies below it. -/
theorem Leads.inside {d : Node} {names : List String} (h : Leads root true links here cs place d)
    (hne : names ≠ []) (hn : d.at? names = some n)
    (hlink : ∀ target, n = .link target → last = false) :
    Leads root last links here (cs ++ names.map .normal) (place ++ names) n := by
  induction names generalizing cs place d with
  | nil => exact absurd rfl hne
  | cons name names ih =>
    obtain ⟨inner, hinner, hrest⟩ := Option.bind_eq_some_iff.mp hn
    obtain ⟨entries, rfl⟩ : ∃ entries, d = .directory entries := by
      cases d with
      | directory entries => exact ⟨entries, rfl⟩
      | file contents modified => cases hinner
      | link target => cases hinner
    cases names with
    | nil =>
      cases hrest
      exact h.child hinner hlink
    | cons name' names =>
      have hdirectory : ∀ target, inner ≠ .link target := by
        rintro target rfl
        cases hrest
      have hstep : Leads root true links here (cs ++ [.normal name]) (place ++ [name]) inner :=
        h.child hinner fun target hlink => absurd hlink (hdirectory target)
      have hleads := ih hstep (List.cons_ne_nil _ _) hrest
      rw [List.append_assoc, List.append_assoc] at hleads
      exact hleads

/-- Without following a link at the end a look-up arrives at a link, or where it arrives
otherwise. -/
theorem Leads.unfollowed (h : Leads root true links here cs place n) :
    Leads root false links here cs place n ∨
      ∃ place' target, Leads root false links here cs place' (.link target) := by
  induction h with
  | here hn => exact .inl (.here hn)
  | root _ ih => exact ih.imp .root fun ⟨p, target, h⟩ => ⟨p, target, .root h⟩
  | current _ ih => exact ih.imp .current fun ⟨p, target, h⟩ => ⟨p, target, .current h⟩
  | parent hentries _ ih =>
    exact ih.imp (.parent hentries) fun ⟨p, target, h⟩ => ⟨p, target, .parent hentries h⟩
  | entry hentries hfound _ => exact .inl (.entry hentries hfound fun _ _ => rfl)
  | @link links here place name cs n entries target hentries hfound _ _ ih =>
    by_cases hcs : cs = []
    · subst hcs
      exact .inr ⟨_, target, .entry hentries hfound fun _ _ => rfl⟩
    · have hlast : cs = [] → false = true := fun h => absurd h hcs
      exact ih.imp (.link hentries hfound hlast) fun ⟨p, target', h⟩ =>
        ⟨p, target', .link hentries hfound hlast h⟩
  | directory hentries hfound hcs _ ih =>
    exact ih.imp (.directory hentries hfound hcs) fun ⟨p, target, h⟩ =>
      ⟨p, target, .directory hentries hfound hcs h⟩

/-- What is found without following a link at the end, and is no link, is found in any case. -/
theorem Leads.followed (h : Leads root false links here cs place n)
    (hn : ∀ target, n ≠ .link target) : Leads root true links here cs place n := by
  induction h with
  | here h => exact .here h
  | root _ ih => exact .root (ih hn)
  | current _ ih => exact .current (ih hn)
  | parent hentries _ ih => exact .parent hentries (ih hn)
  | entry hentries hfound _ =>
    exact .entry hentries hfound fun target h => absurd h (hn target)
  | link hentries hfound _ _ ih => exact .link hentries hfound (fun _ => rfl) (ih hn)
  | directory hentries hfound hcs _ ih => exact .directory hentries hfound hcs (ih hn)

end

/-! ## Paths -/

variable {t : Tree} {p q : Path} {last : Bool} {place : List String} {n : Node}

/-- Following the components of a path in the tree leads to an entry. -/
def LeadsTo (t : Tree) (last : Bool) (cs : List Component) (place : List String) (n : Node) :
    Prop :=
  Leads t.root last linkLimit (startOf t.home cs) cs place n

theorem locate_eq_ok_iff : t.locate last p = .ok (place, some n) ↔
    p.text ≠ "" ∧ (wantsDirectory p = true → n.isDirectory = true) ∧
      t.LeadsTo (last || wantsDirectory p) p.components place n := by
  rw [LeadsTo, ← follow_eq_ok_iff]
  by_cases htext : p.text = ""
  · simp [locate, htext]
  · rcases hfollow : follow t.root (last || wantsDirectory p) linkLimit
        (startOf t.home p.components) p.components with e | ⟨place', _ | n'⟩
    · simp [locate, htext, hfollow]
    · simp [locate, htext, hfollow]
    · have hlocate : t.locate last p =
          if wantsDirectory p = true ∧ n'.isDirectory = false then .error .notDirectory
          else .ok (place', some n') := by
        simp only [locate, if_neg htext, hfollow]
      rw [hlocate]
      constructor
      · intro h
        split at h
        · cases h
        · next hwants =>
          cases h
          exact ⟨htext, fun hw => Bool.not_eq_false _ ▸ fun hd => hwants ⟨hw, hd⟩, rfl⟩
      · rintro ⟨-, hdirectory, hn⟩
        cases hn
        rw [if_neg]
        rintro ⟨hw, hd⟩
        rw [hdirectory hw] at hd
        cases hd

theorem find_eq_ok_iff : t.find p = .ok n ↔ ∃ place, t.locate true p = .ok (place, some n) := by
  unfold find
  rcases t.locate true p with e | ⟨place, _ | n'⟩ <;> simp

/-- What is found is where the steps lead if links at the end are followed. -/
theorem find_iff_leadsTo : t.find p = .ok n ↔
    p.text ≠ "" ∧ (wantsDirectory p = true → n.isDirectory = true) ∧
      ∃ place, t.LeadsTo true p.components place n := by
  simp only [find_eq_ok_iff, locate_eq_ok_iff, Bool.true_or, exists_and_left]

/-- What is there without following a link at the end, and is no link, is found. -/
theorem find_of_locate (h : t.locate false p = .ok (place, some n))
    (hn : ∀ target, n ≠ .link target) : t.find p = .ok n := by
  rw [locate_eq_ok_iff] at h
  obtain ⟨htext, hwants, hleads⟩ := h
  rw [find_iff_leadsTo]
  refine ⟨htext, hwants, place, ?_⟩
  cases hw : wantsDirectory p with
  | false =>
    rw [hw] at hleads
    exact hleads.followed hn
  | true =>
    rw [hw] at hleads
    exact hleads

/-- Where something is found, something is there without following a link at the end. -/
theorem exists_locate_of_find (h : t.find p = .ok n) :
    ∃ place n', t.locate false p = .ok (place, some n') := by
  rw [find_iff_leadsTo] at h
  obtain ⟨htext, hwants, place, hleads⟩ := h
  simp only [locate_eq_ok_iff]
  cases hw : wantsDirectory p with
  | true => exact ⟨place, n, htext, fun _ => hwants hw, hleads⟩
  | false =>
    have hfree : ∀ n' : Node, false = true → n'.isDirectory = true := nofun
    rcases hleads.unfollowed with hleads | ⟨place', target, hleads⟩
    · exact ⟨place, n, htext, hfree n, hleads⟩
    · exact ⟨place', .link target, htext, hfree _, hleads⟩

theorem startOf_append_normal (here : List String) (cs : List Component) (names : List String) :
    startOf here (cs ++ names.map .normal) = startOf here cs := by
  cases cs with
  | nil => cases names <;> rfl
  | cons c cs => cases c <;> rfl

/-- What lies below something that is found is there under a path with more names. -/
theorem exists_locate_of_find_at? {d : Node} {names : List String} (h : t.find p = .ok d)
    (hne : names ≠ []) (hn : d.at? names = some n)
    (hq : q.components = p.components ++ names.map .normal) (htext : q.text ≠ "")
    (hwants : wantsDirectory q = true → n.isDirectory = true) :
    ∃ place, t.locate false q = .ok (place, some n) := by
  rw [find_iff_leadsTo] at h
  obtain ⟨-, -, place, hleads⟩ := h
  simp only [locate_eq_ok_iff]
  refine ⟨place ++ names, htext, hwants, ?_⟩
  rw [LeadsTo, hq, startOf_append_normal]
  refine Leads.inside hleads hne hn ?_
  rintro target rfl
  cases hw : wantsDirectory q with
  | false => rfl
  | true => cases hwants hw

/-- What is found under a path is found under another one with the same components. -/
theorem find_congr (h : t.find p = .ok n) (same : q.components = p.components) (htext : q.text ≠ "")
    (hwants : wantsDirectory q = true → n.isDirectory = true) : t.find q = .ok n := by
  rw [find_iff_leadsTo] at h ⊢
  rw [same]
  exact ⟨htext, hwants, h.2.2⟩

/-- **What is found depends on the components of the path only**, as far as anything is found. -/
theorem find_unique {n' : Node} (same : p.components = q.components) (h : t.find p = .ok n)
    (h' : t.find q = .ok n') : n = n' := by
  rw [find_iff_leadsTo] at h h'
  obtain ⟨-, -, place, hleads⟩ := h
  obtain ⟨-, -, place', hleads'⟩ := h'
  rw [LeadsTo, ← follow_eq_ok_iff] at hleads hleads'
  rw [same, hleads'] at hleads
  cases hleads
  rfl

theorem modified_unique {a b : Int} (same : p.components = q.components)
    (h : t.modified p = .ok a) (h' : t.modified q = .ok b) : a = b := by
  unfold modified at h h'
  rcases hp : t.find p with e | n
  · rw [hp] at h
    cases h
  · rcases hq : t.find q with e | n'
    · rw [hq] at h'
      cases h'
    · rw [hp] at h
      rw [hq, ← find_unique same hp hq, h] at h'
      exact Except.ok.inj h'

end Tree

end PackHost.Files
