import PackHost.Proofs.Files.Location
import PackHost.Proofs.Files.Put

/-!
# Making directories

Making a directory with all directories on the way to it succeeds exactly if there is a directory
afterwards, and doing it again changes nothing, whether it succeeded or not.
-/

namespace PackHost.Files

/-! ## Paths made of components -/

def Component.Inner (c : Component) : Prop := c = .parent ∨ ∃ name, IsName name ∧ c = .normal name

/-- Components as paths have them: the first one may say where the path starts. -/
def Written (cs : List Component) : Prop :=
  ∃ start inner, cs = start ++ inner ∧ (start = [] ∨ start = [.root] ∨ start = [.current]) ∧
    ∀ c ∈ inner, c.Inner

theorem not_mem_of_mem_splitAtAll {separator : Char} {part cs : List Char}
    (h : part ∈ splitAtAll separator cs) : separator ∉ part := by
  induction cs generalizing part with
  | nil =>
    cases List.mem_singleton.mp h
    exact List.not_mem_nil
  | cons c cs ih =>
    unfold splitAtAll at h
    split at h
    · rcases List.mem_cons.mp h with rfl | h
      · exact List.not_mem_nil
      · exact ih h
    · next hc =>
      split at h
      · cases List.mem_singleton.mp h
        exact fun hmem => hc (List.mem_singleton.mp hmem).symm
      · next s ss hsplit =>
        rw [hsplit] at ih
        rcases List.mem_cons.mp h with rfl | h
        · intro hmem
          rcases List.mem_cons.mp hmem with heq | hmem
          · exact hc heq.symm
          · exact ih List.mem_cons_self hmem
        · exact ih (List.mem_cons_of_mem _ h)

theorem inner_of_segment? {part : List Char} {c : Component} (hpart : '/' ∉ part)
    (h : Path.segment? part = some c) : c.Inner := by
  unfold Path.segment? at h
  split at h
  · cases h
  · next hplain =>
    obtain ⟨hempty, hdot⟩ := not_or.mp hplain
    split at h
    · cases h
      exact .inl rfl
    · next hdots =>
      cases h
      refine .inr ⟨_, ⟨fun h => hempty ?_, ?_, fun h => hdot ?_, fun h => hdots ?_⟩, rfl⟩
      · exact String.ofList_injective h
      · rwa [String.toList_ofList]
      · exact String.ofList_injective h
      · exact String.ofList_injective h

theorem written_components (p : Path) : Written p.components := by
  refine ⟨_, _, p.components_eq, ?_, fun c hc => ?_⟩
  · unfold Path.lead
    split
    · exact .inr (.inl rfl)
    · split
      · exact .inr (.inr rfl)
      · exact .inl rfl
  · obtain ⟨part, hpart, hsegment⟩ := List.mem_filterMap.mp hc
    exact inner_of_segment? (not_mem_of_mem_splitAtAll hpart) hsegment

theorem Written.init {cs ds : List Component} (h : Written (cs ++ ds)) : Written cs := by
  obtain ⟨start, inner, heq, hstart, hinner⟩ := h
  rcases List.append_eq_append_iff.mp heq with ⟨more, rfl, -⟩ | ⟨more, rfl, rfl⟩
  · refine ⟨cs, [], (List.append_nil _).symm, ?_, List.forall_mem_nil _⟩
    cases cs with
    | nil => exact .inl rfl
    | cons c cs =>
      rcases hstart with h | h | h
      · cases h
      · cases (List.append_eq_nil_iff.mp (List.cons.inj h).2).1
        exact .inr (.inl (by rw [(List.cons.inj h).1]))
      · cases (List.append_eq_nil_iff.mp (List.cons.inj h).2).1
        exact .inr (.inr (by rw [(List.cons.inj h).1]))
  · exact ⟨start, more, rfl, hstart, fun c hc => hinner c (List.mem_append_left _ hc)⟩

/-- What comes later in a path does not say where the path starts. -/
theorem Written.inner_last {cs : List Component} {c : Component} (h : Written (cs ++ [c]))
    (hne : cs ≠ []) : c.Inner := by
  obtain ⟨start, inner, heq, hstart, hinner⟩ := h
  rcases List.eq_nil_or_concat' inner with rfl | ⟨inner, c', rfl⟩
  · rw [List.append_nil] at heq
    rcases hstart with rfl | rfl | rfl
    · cases (List.append_eq_nil_iff.mp heq).2
    · rw [← List.nil_append [Component.root]] at heq
      exact absurd (List.append_inj' heq rfl).1 hne
    · rw [← List.nil_append [Component.current]] at heq
      exact absurd (List.append_inj' heq rfl).1 hne
  · rw [← List.append_assoc] at heq
    cases (List.append_inj' heq rfl).2
    exact hinner c (List.mem_append_right _ (List.mem_singleton_self c))

theorem Component.Inner.chars {c : Component} (h : c.Inner) :
    c.text.toList ≠ [] ∧ '/' ∉ c.text.toList ∧ c.text.toList ≠ ['.'] ∧
      Path.segment? c.text.toList = some c := by
  rcases h with rfl | ⟨name, hname, rfl⟩
  · decide
  · have hempty : name.toList ≠ [] := fun h => hname.nonempty (String.toList_injective h)
    have hcurrent : name.toList ≠ ['.'] := fun h => hname.current (String.toList_injective h)
    have hparent : name.toList ≠ ['.', '.'] := fun h => hname.parent (String.toList_injective h)
    exact ⟨hempty, hname.undivided, hcurrent, by
      simp [Component.text, Path.segment?, hempty, hcurrent, hparent]⟩

theorem splitAtAll_texts {cs : List Component} (hne : cs ≠ [])
    (h : ∀ c ∈ cs, '/' ∉ c.text.toList) :
    splitAtAll '/' ("/".intercalate (cs.map Component.text)).toList =
      cs.map fun c => c.text.toList := by
  have hparts : (cs.map Component.text).map String.toList = cs.map fun c => c.text.toList := by
    rw [List.map_map]
    rfl
  rw [String.toList_intercalate, hparts]
  refine splitAtAll_intercalate (mt List.map_eq_nil_iff.mp hne) fun part hpart => ?_
  obtain ⟨c, hc, rfl⟩ := List.mem_map.mp hpart
  exact h c hc

theorem filterMap_texts {cs : List Component} (h : ∀ c ∈ cs, c.Inner) :
    (cs.map fun c => c.text.toList).filterMap Path.segment? = cs := by
  rw [List.filterMap_map]
  refine (List.filterMap_congr fun c hc => (h c hc).chars.2.2.2).trans List.filterMap_some

/-- Behind a separator there is nothing or another segment. -/
theorem getLast?_ne_of_segments {cs part : List Char} (h : (splitAtAll '/' cs).getLast? = some part)
    (hpart : part ≠ []) : cs.getLast? ≠ some '/' := by
  intro hlast
  obtain ⟨ds, rfl⟩ := List.getLast?_eq_some_iff.mp hlast
  rw [splitAtAll_append, splitAtAll, List.getLast?_concat] at h
  exact hpart (Option.some.inj h).symm

theorem head?_ne_of_segments {cs part : List Char} (h : (splitAtAll '/' cs).head? = some part)
    (hpart : part ≠ []) : cs.head? ≠ some '/' := by
  intro hhead
  obtain ⟨ds, rfl⟩ := List.head?_eq_some_iff.mp hhead
  exact hpart (Option.some.inj h).symm

/-- Components that are not empty and not divided are written without a separator at either end. -/
theorem pathOf_plain {cs : List Component} (hne : cs ≠ [])
    (h : ∀ c ∈ cs, c.text.toList ≠ [] ∧ '/' ∉ c.text.toList) :
    let text := ("/".intercalate (cs.map Component.text)).toList
    text ≠ [] ∧ text.head? ≠ some '/' ∧ text.getLast? ≠ some '/' := by
  intro text
  have hsegments : splitAtAll '/' text = cs.map fun c => c.text.toList :=
    splitAtAll_texts hne fun c hc => (h c hc).2
  have hparts : ∀ part ∈ splitAtAll '/' text, part ≠ [] := by
    intro part hpart
    rw [hsegments] at hpart
    obtain ⟨c, hc, rfl⟩ := List.mem_map.mp hpart
    exact (h c hc).1
  have hnonempty := splitAtAll_ne_nil '/' text
  have hhead := List.head?_eq_some_head hnonempty
  have hlast := List.getLast?_eq_some_getLast hnonempty
  refine ⟨fun hempty => ?_, head?_ne_of_segments hhead (hparts _ (List.head_mem hnonempty)),
    getLast?_ne_of_segments hlast (hparts _ (List.getLast_mem hnonempty))⟩
  rw [hempty] at hparts
  exact hparts [] (List.mem_singleton_self []) rfl

/-- **A path made of the components of a path has these components**, and it does not end with a
separator, unless it is the root. -/
theorem components_pathOf {cs : List Component} (h : Written cs) (hne : cs ≠ []) :
    (Tree.pathOf cs).components = cs ∧
      (cs ≠ [.root] → (Tree.pathOf cs).text.toList.getLast? ≠ some '/') := by
  obtain ⟨start, inner, rfl, hstart, hinner⟩ := h
  have hchars : ∀ c ∈ inner, c.text.toList ≠ [] ∧ '/' ∉ c.text.toList := fun c hc =>
    ⟨(hinner c hc).chars.1, (hinner c hc).chars.2.1⟩
  rcases hstart with rfl | rfl | rfl
  · rw [List.nil_append] at hne ⊢
    have hpath : Tree.pathOf inner = ⟨"/".intercalate (inner.map Component.text)⟩ := by
      cases inner with
      | nil => rfl
      | cons c inner => rcases hinner c List.mem_cons_self with rfl | ⟨name, -, rfl⟩ <;> rfl
    have hsegments := splitAtAll_texts hne fun c hc => (hchars c hc).2
    obtain ⟨-, hhead, hlast⟩ := pathOf_plain hne hchars
    have hdot : (splitAtAll '/' ("/".intercalate (inner.map Component.text)).toList).head? ≠
        some ['.'] := by
      obtain ⟨c, rest, rfl⟩ := List.exists_cons_of_ne_nil hne
      rw [hsegments]
      exact fun h => (hinner c List.mem_cons_self).chars.2.2.1 (Option.some.inj h)
    refine ⟨?_, fun _ => by rw [hpath]; exact hlast⟩
    rw [hpath, Path.components_eq, Path.lead, if_neg hhead, if_neg hdot, hsegments,
      filterMap_texts hinner, List.nil_append]
  · have htext : (Tree.pathOf (.root :: inner)).text.toList =
        '/' :: ("/".intercalate (inner.map Component.text)).toList := by
      rw [Tree.pathOf, String.toList_append]
      rfl
    have hlead : Path.lead (Tree.pathOf (.root :: inner)).text.toList = [.root] := by
      rw [htext, Path.lead, List.head?_cons, if_pos rfl]
    have hsplit : (splitAtAll '/' (Tree.pathOf (.root :: inner)).text.toList).filterMap
        Path.segment? = inner := by
      rw [htext, splitAtAll, if_pos rfl]
      by_cases hnil : inner = []
      · subst hnil
        rfl
      · rw [splitAtAll_texts hnil fun c hc => (hchars c hc).2,
          List.filterMap_cons_none (by rfl), filterMap_texts hinner]
    refine ⟨?_, fun hroot => ?_⟩
    · rw [List.cons_append, List.nil_append, Path.components_eq, hlead, hsplit]
      rfl
    · have hnil : inner ≠ [] := fun h => hroot (by rw [h]; rfl)
      rw [List.cons_append, List.nil_append, htext]
      obtain ⟨hempty, -, hlast⟩ := pathOf_plain hnil hchars
      obtain ⟨x, xs, hx⟩ := List.exists_cons_of_ne_nil hempty
      rw [hx] at hlast ⊢
      rwa [List.getLast?_cons_cons]
  · have hall : ∀ c ∈ Component.current :: inner, c.text.toList ≠ [] ∧ '/' ∉ c.text.toList :=
      List.forall_mem_cons.mpr ⟨by decide, hchars⟩
    have hsegments := splitAtAll_texts hne fun c hc => (hall c hc).2
    obtain ⟨-, hhead, hlast⟩ := pathOf_plain hne hall
    refine ⟨?_, fun _ => hlast⟩
    have hpath : Tree.pathOf (.current :: inner) =
      ⟨"/".intercalate ((Component.current :: inner).map Component.text)⟩ := rfl
    rw [List.cons_append, List.nil_append] at hsegments hhead ⊢
    rw [hpath, Path.components_eq, Path.lead, if_neg hhead, hsegments, List.map_cons,
      List.head?_cons, if_pos (by rfl), List.filterMap_cons_none (by rfl), filterMap_texts hinner]
    rfl

namespace Tree

variable {t t' : Tree} {p q : Path} {last : Bool} {place : List String} {n : Node}
  {cs above : List Component} {c : Component}

/-! ## Directories -/

theorem text_ne_empty_of_components (h : p.components ≠ []) : p.text ≠ "" := by
  intro htext
  refine h ?_
  rw [Path.components_eq, htext]
  rfl

theorem isDirectory_iff_find :
    t.isDirectory p = true ↔ ∃ entries, t.find p = .ok (.directory entries) := by
  unfold isDirectory
  rcases t.find p with e | n
  · simp
  · simp only [Except.ok.injEq]
    exact ⟨Node.exists_of_isDirectory, fun ⟨entries, h⟩ => h ▸ rfl⟩

/-- A path names a directory if following its components leads to one. -/
theorem isDirectory_iff : t.isDirectory p = true ↔ p.text ≠ "" ∧ ∃ place entries,
    follow t.root true linkLimit (startOf t.home p.components) p.components =
      .ok (place, some (.directory entries)) := by
  rw [isDirectory_iff_find]
  constructor
  · rintro ⟨entries, h⟩
    obtain ⟨htext, -, place, hleads⟩ := find_iff_leadsTo.mp h
    exact ⟨htext, place, entries, follow_of_leads hleads⟩
  · rintro ⟨htext, place, entries, h⟩
    exact ⟨entries, find_iff_leadsTo.mpr ⟨htext, fun _ => rfl, place, leads_of_follow h⟩⟩

theorem contains_of_isDirectory (h : t.isDirectory p = true) : t.contains p = true := by
  rw [isDirectory_iff_find] at h
  obtain ⟨entries, hfind⟩ := h
  rw [contains, hfind]

theorem isDirectory_congr (same : q.components = p.components) (hq : q.text ≠ "")
    (h : t.isDirectory p = true) : t.isDirectory q = true := by
  rw [isDirectory_iff] at h ⊢
  rw [same]
  exact ⟨hq, h.2⟩

/-- **Directories stay directories** when an entry that is no link is put at a vacant place. -/
theorem isDirectory_put (vacant : Node.Vacant place t.root) (hn : ∀ target, n ≠ .link target)
    (h : t.isDirectory p = true) : (t.put place n).isDirectory p = true := by
  rw [isDirectory_iff] at h ⊢
  obtain ⟨htext, q, entries, h⟩ := h
  obtain ⟨entries', hentries', -⟩ := vacant.directory_put n (leads_of_follow h).at?
  refine ⟨htext, q, entries', ?_⟩
  have hput := follow_put vacant hn h
  rwa [hentries'] at hput

/-- What is located is what following the components leads to. -/
theorem follow_of_locate {y : Option Node} (h : t.locate last p = .ok (place, y)) : p.text ≠ "" ∧
    follow t.root (last || wantsDirectory p) linkLimit (startOf t.home p.components) p.components =
      .ok (place, y) := by
  unfold locate at h
  split at h
  · cases h
  · next htext =>
    refine ⟨htext, ?_⟩
    simp only at h
    split at h
    · next hfollow =>
      split at h
      · cases h
      · rw [hfollow, h]
    · exact h

theorem startOf_append (here : List String) (hne : cs ≠ []) (ds : List Component) :
    startOf here (cs ++ ds) = startOf here cs := by
  obtain ⟨c, cs, rfl⟩ := List.exists_cons_of_ne_nil hne
  cases c <;> rfl

section

variable (hp : p.components = cs) (hq : q.components = cs ++ [c]) (hne : cs ≠ []) (hc : c.Inner)
include hp hq hne hc

/-- What a path is followed to lies in a directory. -/
theorem isDirectory_of_follow {y : Option Node}
    (h : follow t.root last linkLimit (startOf t.home q.components) q.components =
      .ok (place, y)) : t.isDirectory p = true := by
  have hinner : c = .parent ∨ ∃ name, c = .normal name := by
    rcases hc with hc | ⟨name, -, hc⟩
    · exact .inl hc
    · exact .inr ⟨name, hc⟩
  rw [hq, startOf_append t.home hne] at h
  obtain ⟨q', entries, hfollow, -⟩ := follow_concat hinner h
  rw [isDirectory_iff]
  refine ⟨text_ne_empty_of_components (hp ▸ hne), q', entries, ?_⟩
  rw [hp]
  exact hfollow

theorem isDirectory_above (h : t.isDirectory q = true) : t.isDirectory p = true := by
  rw [isDirectory_iff] at h
  obtain ⟨-, place, entries, h⟩ := h
  exact isDirectory_of_follow hp hq hne hc h

theorem isDirectory_above_of_locate (h : t.locate last q = .ok (place, none)) :
    t.isDirectory p = true :=
  isDirectory_of_follow hp hq hne hc (follow_of_locate h).2

end

/-! ## One directory -/

/-- Making a directory that is written without a separator at its end is to look whether there is
nothing yet. -/
theorem makeDirectory_pathOf (h : Written cs) (hne : cs ≠ []) : t.makeDirectory (pathOf cs) =
    match t.locate false (pathOf cs) with
    | .error e => .error e
    | .ok (_, some _) => .error .exists
    | .ok (place, none) => .ok (t.put place (.directory [])) := by
  have htrimmed : ∀ p : Path, p.text.toList.getLast? ≠ some '/' →
      p.text.toList.reverse.dropWhile (· == '/') = p.text.toList.reverse := by
    intro p hlast
    cases hchars : p.text.toList.reverse with
    | nil => rfl
    | cons c rest =>
      have hc : c ≠ '/' := by
        rintro rfl
        rw [← List.head?_reverse, hchars] at hlast
        exact hlast rfl
      rw [List.dropWhile_cons_of_neg (by simpa using hc)]
  by_cases hroot : cs = [.root]
  · subst hroot
    rfl
  · have hpath := htrimmed _ ((components_pathOf h hne).2 hroot)
    rcases hlocate : t.locate false (pathOf cs) with e | ⟨place, _ | n⟩ <;>
      simp only [makeDirectory, hpath, List.reverse_reverse, String.ofList_toList, ite_self, hlocate]

theorem makeDirectory_of_isDirectory (h : Written cs) (hne : cs ≠ [])
    (hthere : t.isDirectory (pathOf cs) = true) : t.makeDirectory (pathOf cs) = .error .exists := by
  rw [isDirectory_iff_find] at hthere
  obtain ⟨entries, hfind⟩ := hthere
  obtain ⟨place, n', hlocate⟩ := exists_locate_of_find hfind
  rw [makeDirectory_pathOf h hne, hlocate]

/-- A directory that was made is there, and all other directories still are. -/
theorem isDirectory_of_makeDirectory (h : Written cs) (hne : cs ≠ [])
    (hmade : t.makeDirectory (pathOf cs) = .ok t') : t'.isDirectory (pathOf cs) = true := by
  rw [makeDirectory_pathOf h hne] at hmade
  rcases hlocate : t.locate false (pathOf cs) with e | ⟨place, _ | n⟩
  · rw [hlocate] at hmade
    cases hmade
  · rw [hlocate] at hmade
    cases hmade
    obtain ⟨htext, hfollow⟩ := follow_of_locate hlocate
    have hdirectory : ∀ target, Node.directory [] ≠ .link target := fun _ h => by cases h
    have hput : follow (Node.put (.directory []) place t.root) (false || wantsDirectory (pathOf cs))
        linkLimit (startOf t.home (pathOf cs).components) (pathOf cs).components =
          .ok (place, some (.directory [])) := by
      rcases follow_vacant hfollow (.inr rfl) (fun _ h => by cases h) with
        hvacant | ⟨rfl, hnothing, hidle⟩
      · rw [follow_put hvacant hdirectory hfollow, Node.at?_put_self]
      · rw [follow_of_idle hidle, Node.at?_put_self]
    rw [isDirectory_iff]
    refine ⟨htext, place, [], follow_of_leads ?_⟩
    have hleads := leads_of_follow hput
    cases hwants : wantsDirectory (pathOf cs) with
    | true => rwa [hwants] at hleads
    | false =>
      rw [hwants] at hleads
      exact hleads.followed hdirectory
  · rw [hlocate] at hmade
    cases hmade

theorem isDirectory_above_of_makeDirectory (h : Written (cs ++ [c])) (hne : cs ≠ [])
    (hmade : t.makeDirectory (pathOf (cs ++ [c])) = .ok t') : t.isDirectory (pathOf cs) = true := by
  rw [makeDirectory_pathOf h (by simp)] at hmade
  rcases hlocate : t.locate false (pathOf (cs ++ [c])) with e | ⟨place, _ | n⟩
  · rw [hlocate] at hmade
    cases hmade
  · exact isDirectory_above_of_locate (components_pathOf h.init hne).1
      (components_pathOf h (by simp)).1 hne (h.inner_last hne) hlocate
  · rw [hlocate] at hmade
    cases hmade

/-! ## All directories on the way -/

/-- What making a directory and all directories on the way to it comes to: the tree afterwards and
the trouble on the way. The components are reversed. -/
inductive Makes : Tree → List Component → Tree → Option Trouble → Prop
  | nothing (t : Tree) : Makes t [] t none
  | made {t t' : Tree} {c : Component} {above : List Component} :
      t.makeDirectory (pathOf (above.reverse ++ [c])) = .ok t' → Makes t (c :: above) t' none
  | stuck {t t' : Tree} {c : Component} {above : List Component} {e : Trouble} :
      t.makeDirectory (pathOf (above.reverse ++ [c])) = .error .notFound →
      Makes t above t' (some e) → Makes t (c :: above) t' (some e)
  | inside {t t' t'' : Tree} {c : Component} {above : List Component} :
      t.makeDirectory (pathOf (above.reverse ++ [c])) = .error .notFound →
      Makes t above t' none → t'.makeDirectory (pathOf (above.reverse ++ [c])) = .ok t'' →
      Makes t (c :: above) t'' none
  | settledInside {t t' : Tree} {c : Component} {above : List Component} {e : Trouble} :
      t.makeDirectory (pathOf (above.reverse ++ [c])) = .error .notFound →
      Makes t above t' none → t'.makeDirectory (pathOf (above.reverse ++ [c])) = .error e →
      Makes t (c :: above) t'
        (if t'.isDirectory (pathOf (above.reverse ++ [c])) then none else some e)
  | settled {t : Tree} {c : Component} {above : List Component} {e : Trouble} :
      t.makeDirectory (pathOf (above.reverse ++ [c])) = .error e → e ≠ .notFound →
      Makes t (c :: above) t
        (if t.isDirectory (pathOf (above.reverse ++ [c])) then none else some e)

theorem makes_makeAll (t : Tree) (cs : List Component) :
    Makes t cs (t.makeAll cs).1 (t.makeAll cs).2 := by
  induction cs with
  | nil => exact .nothing t
  | cons c above ih =>
    rw [makeAll, List.reverse_cons]
    rcases hfirst : t.makeDirectory (pathOf (above.reverse ++ [c])) with e | t₁
    · by_cases he : e = .notFound
      · subst he
        rcases habove : t.makeAll above with ⟨t₁, _ | e⟩
        · rw [habove] at ih
          rcases hsecond : t₁.makeDirectory (pathOf (above.reverse ++ [c])) with e | t₂
          · simp only [hsecond]
            exact .settledInside hfirst ih hsecond
          · simp only [hsecond]
            exact .inside hfirst ih hsecond
        · rw [habove] at ih
          exact .stuck hfirst ih
      · have hsettled : Makes t (c :: above)
            (t.settleDirectory (pathOf (above.reverse ++ [c])) e).1
            (t.settleDirectory (pathOf (above.reverse ++ [c])) e).2 := .settled hfirst he
        cases e <;> first | exact hsettled | exact absurd rfl he
    · exact .made hfirst

section

variable {t'' : Tree} {o o' : Option Trouble} {e : Trouble}

/-- **Where directories were made without trouble, there is a directory.** -/
theorem Makes.isDirectory (h : Makes t cs t' none) (written : Written cs.reverse) (hne : cs ≠ []) :
    t'.isDirectory (pathOf cs.reverse) = true := by
  generalize ho : (none : Option Trouble) = o at h
  cases h with
  | nothing => exact absurd rfl hne
  | made hmade =>
    rw [← List.reverse_cons] at hmade
    exact isDirectory_of_makeDirectory written (by simp) hmade
  | stuck => cases ho
  | inside _ _ hmade =>
    rw [← List.reverse_cons] at hmade
    exact isDirectory_of_makeDirectory written (by simp) hmade
  | settledInside | settled =>
    rw [List.reverse_cons]
    by_contra hthere
    rw [if_neg hthere] at ho
    cases ho

theorem Makes.reverse_ne_nil (h : Makes t cs t' (some e)) : cs.reverse ≠ [] := by
  intro hnil
  rw [List.reverse_eq_nil_iff.mp hnil] at h
  cases h

/-- **Where there was trouble, there is no directory.** -/
theorem Makes.not_isDirectory (h : Makes t cs t' (some e)) (written : Written cs.reverse) :
    t'.isDirectory (pathOf cs.reverse) = false := by
  generalize ho : some e = o at h
  induction h generalizing e with
  | nothing | made | inside => cases ho
  | @stuck t' c above e' _ habove ih =>
    rw [List.reverse_cons] at written ⊢
    have hne := habove.reverse_ne_nil
    have hnone := ih written.init rfl
    rw [← Bool.not_eq_true] at hnone ⊢
    exact mt (isDirectory_above (components_pathOf written.init hne).1
      (components_pathOf written (by simp)).1 hne (written.inner_last hne)) hnone
  | settledInside | settled =>
    rw [List.reverse_cons, ← Bool.not_eq_true]
    intro hthere
    rw [if_pos hthere] at ho
    cases ho

/-- Where there is a directory, nothing is made. -/
theorem Makes.eq_of_isDirectory (h : Makes t cs t' o) (written : Written cs.reverse)
    (hthere : t.isDirectory (pathOf cs.reverse) = true) : t' = t := by
  cases h with
  | nothing => rfl
  | settled => rfl
  | made hmade | stuck hmade | inside hmade | settledInside hmade =>
    rw [← List.reverse_cons, makeDirectory_of_isDirectory written (by simp) hthere] at hmade
    cases hmade

/-- **Making directories again changes nothing**, whether there was trouble or not. -/
theorem Makes.again (h : Makes t cs t' o) (h' : Makes t' cs t'' o') (written : Written cs.reverse) :
    t'' = t' := by
  induction h generalizing t'' o' with
  | nothing =>
    cases h'
    rfl
  | made hmade =>
    refine h'.eq_of_isDirectory written ?_
    exact Makes.isDirectory (.made hmade) written (List.cons_ne_nil _ _)
  | inside hfirst habove hmade =>
    refine h'.eq_of_isDirectory written ?_
    exact Makes.isDirectory (.inside hfirst habove hmade) written (List.cons_ne_nil _ _)
  | @stuck t' c above e hfirst habove ih =>
    rw [List.reverse_cons] at written
    have hnone := habove.not_isDirectory written.init
    cases h' with
    | made hmade =>
      rw [isDirectory_above_of_makeDirectory written habove.reverse_ne_nil hmade] at hnone
      cases hnone
    | stuck _ habove' => exact ih habove' written.init
    | inside hfirst' habove' hmade =>
      rw [ih habove' written.init, hfirst'] at hmade
      cases hmade
    | settledInside _ habove' => exact ih habove' written.init
    | settled => rfl
  | @settledInside t' c above e hfirst habove hsecond ih =>
    rw [List.reverse_cons] at written
    cases h' with
    | made hmade =>
      rw [hsecond] at hmade
      cases hmade
    | stuck _ habove' => exact ih habove' written.init
    | inside hfirst' habove' hmade =>
      rw [ih habove' written.init, hfirst'] at hmade
      cases hmade
    | settledInside _ habove' => exact ih habove' written.init
    | settled => rfl
  | settled hfirst he =>
    cases h' with
    | settled => rfl
    | made hfirst' =>
      rw [hfirst] at hfirst'
      cases hfirst'
    | stuck hfirst' | inside hfirst' | settledInside hfirst' =>
      rw [hfirst] at hfirst'
      exact absurd (Except.error.inj hfirst') he

end

end Tree

end PackHost.Files
