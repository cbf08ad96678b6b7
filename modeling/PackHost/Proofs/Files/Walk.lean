import Mathlib.Data.List.Nodup
import PackHost.Proofs.Files.Lookup
import PackHost.Proofs.Files.Order

/-!
# Walks

A walk below a directory comes by every entry once, under the path that joins the names on the way
(`Node.mem_walk`), provided that directories name their entries properly (`Tree.Proper`). What is
met below a path depends on what is found there (`Tree.Meets`), and so do the files with an
extension (`Tree.mem_filesWithExtension`).
-/

namespace PackHost.Files

/-! ## Names and paths -/

theorem splitAtAll_ne_nil (separator : Char) (cs : List Char) : splitAtAll separator cs ≠ [] := by
  cases cs with
  | nil => exact List.cons_ne_nil _ _
  | cons c cs =>
    unfold splitAtAll
    split
    · exact List.cons_ne_nil _ _
    · split <;> exact List.cons_ne_nil _ _

theorem splitAtAll_append (separator : Char) (cs ds : List Char) :
    splitAtAll separator (cs ++ separator :: ds) =
      splitAtAll separator cs ++ splitAtAll separator ds := by
  induction cs with
  | nil => simp [splitAtAll]
  | cons c cs ih =>
    rw [List.cons_append, splitAtAll, splitAtAll]
    split
    · rw [ih, List.cons_append]
    · rw [ih]
      cases h : splitAtAll separator cs with
      | nil => exact absurd h (splitAtAll_ne_nil separator cs)
      | cons s ss => rfl

theorem splitAtAll_of_not_mem {separator : Char} {cs : List Char} (h : separator ∉ cs) :
    splitAtAll separator cs = [cs] := by
  induction cs with
  | nil => rfl
  | cons c cs ih =>
    obtain ⟨hc, hcs⟩ := not_or.mp (mt List.mem_cons.mpr h)
    rw [splitAtAll, if_neg (Ne.symm hc), ih hcs]

structure IsName (name : String) : Prop where
  nonempty : name ≠ ""
  undivided : '/' ∉ name.toList
  current : name ≠ "."
  parent : name ≠ ".."

instance (name : String) : Decidable (IsName name) :=
  decidable_of_iff (name ≠ "" ∧ '/' ∉ name.toList ∧ name ≠ "." ∧ name ≠ "..")
    ⟨fun ⟨empty, divided, current, parent⟩ => ⟨empty, divided, current, parent⟩,
      fun ⟨empty, divided, current, parent⟩ => ⟨empty, divided, current, parent⟩⟩

namespace Path

variable {p : Path} {name : String}

theorem segments_of_isName (h : IsName name) :
    (splitAtAll '/' name.toList).filterMap segment? = [.normal name] := by
  have hempty : name.toList ≠ [] := fun h' => h.nonempty (String.toList_injective h')
  have hcurrent : name.toList ≠ ['.'] := fun h' => h.current (String.toList_injective h')
  have hparent : name.toList ≠ ['.', '.'] := fun h' => h.parent (String.toList_injective h')
  rw [splitAtAll_of_not_mem h.undivided]
  simp [segment?, hempty, hcurrent, hparent]

theorem isAbsolute_of_isName (h : IsName name) : (⟨name⟩ : Path).isAbsolute = false := by
  rw [isAbsolute, beq_eq_false_iff_ne]
  intro hhead
  exact h.undivided (List.mem_of_mem_head? hhead)

/-- The component that the start of a path stands for, if it is one of its own. -/
def lead (cs : List Char) : List Component :=
  if cs.head? = some '/' then [.root]
  else if (splitAtAll '/' cs).head? = some ['.'] then [.current] else []

theorem components_eq (p : Path) : p.components =
    lead p.text.toList ++ (splitAtAll '/' p.text.toList).filterMap segment? := by
  simp only [components, isAbsolute, lead, beq_iff_eq]
  split
  · rfl
  · split <;> rfl

theorem lead_append (cs ds : List Char) : lead (cs ++ '/' :: ds) = lead (cs ++ ['/']) := by
  have hhead : (cs ++ '/' :: ds).head? = (cs ++ ['/']).head? := by cases cs <;> rfl
  have hsegment : ∀ ds, (splitAtAll '/' (cs ++ '/' :: ds)).head? = (splitAtAll '/' cs).head? := by
    intro ds
    rw [splitAtAll_append, List.head?_append_of_ne_nil _ (splitAtAll_ne_nil _ _)]
  rw [lead, lead, hhead, hsegment, hsegment]

theorem lead_concat {cs : List Char} (h : cs ≠ []) : lead (cs ++ ['/']) = lead cs := by
  rw [lead, lead, List.head?_append_of_ne_nil _ h, splitAtAll_append,
    List.head?_append_of_ne_nil _ (splitAtAll_ne_nil _ _)]

/-- What is not absolute goes behind a path that is not empty, segment by segment. -/
theorem components_join_relative {p q : Path} (hp : p.text ≠ "") (hq : q.isAbsolute = false) :
    (p.join q).components =
      p.components ++ (splitAtAll '/' q.text.toList).filterMap segment? := by
  have hchars : p.text.toList ≠ [] := fun h' => hp (String.toList_injective h')
  by_cases hslash : p.text.toList.getLast? = some '/'
  · obtain ⟨cs, hcs⟩ := List.getLast?_eq_some_iff.mp hslash
    have hjoin : (p.join q).text.toList = cs ++ '/' :: q.text.toList := by
      simp [join, hq, hcs]
    have hlast : (splitAtAll '/' []).filterMap segment? = [] := rfl
    rw [components_eq, components_eq, hjoin, hcs, lead_append, splitAtAll_append,
      splitAtAll_append, List.filterMap_append, List.filterMap_append, hlast, List.append_nil,
      List.append_assoc]
  · have hjoin : (p.join q).text.toList = p.text.toList ++ '/' :: q.text.toList := by
      simp [join, hq, hslash, hp]
    rw [components_eq, components_eq, hjoin, lead_append, lead_concat hchars, splitAtAll_append,
      List.filterMap_append, List.append_assoc]

theorem components_join (p : Path) (h : IsName name) :
    (p.join ⟨name⟩).components = p.components ++ [.normal name] := by
  have hname := segments_of_isName h
  have hrelative := isAbsolute_of_isName h
  by_cases hempty : p.text = ""
  · have hjoin : p.join ⟨name⟩ = ⟨name⟩ := by
      simp [join, hrelative, hempty]
    have hlead : lead name.toList = [] := by
      rw [isAbsolute, beq_eq_false_iff_ne] at hrelative
      have hcurrent : name.toList ≠ ['.'] := fun h' => h.current (String.toList_injective h')
      rw [lead, if_neg hrelative, splitAtAll_of_not_mem h.undivided]
      simp [hcurrent]
    rw [hjoin, components_eq, components_eq, hempty, hname, hlead]
    rfl
  · rw [components_join_relative hempty hrelative, hname]

theorem text_join_ne_empty (p : Path) (h : IsName name) : (p.join ⟨name⟩).text ≠ "" := by
  have hlast : ∀ before : String, before ++ name ≠ "" := fun before hempty =>
    h.nonempty (String.append_eq_empty_iff.mp hempty).2
  rw [join, isAbsolute_of_isName h]
  split
  · cases ‹false = true›
  · split <;> exact hlast _

/-- A name at the end does not ask for a directory. -/
theorem wantsDirectory_join (p : Path) (h : IsName name) :
    Tree.wantsDirectory (p.join ⟨name⟩) = false := by
  obtain ⟨before, hbefore⟩ : ∃ before, (p.join ⟨name⟩).text = before ++ name := by
    rw [join, isAbsolute_of_isName h]
    split
    · cases ‹false = true›
    · split
      · exact ⟨_, rfl⟩
      · exact ⟨_, rfl⟩
  have hne : name.toList ≠ [] := fun h' => h.nonempty (String.toList_injective h')
  obtain ⟨cs, c, hcs⟩ := (List.eq_nil_or_concat' name.toList).resolve_left hne
  have hc : c ≠ '/' := by
    rintro rfl
    exact h.undivided (by simp [hcs])
  have hreverse : (p.join ⟨name⟩).text.toList.reverse =
      c :: (cs.reverse ++ before.toList.reverse) := by simp [hbefore, hcs]
  simp only [Tree.wantsDirectory, hreverse]
  rcases List.eq_nil_or_concat' cs with hnil | ⟨ds, d, hds⟩
  · have hdot : c ≠ '.' := by
      rintro rfl
      rw [hnil] at hcs
      exact h.current (String.toList_injective hcs)
    simp [List.isPrefixOf, hc, Ne.symm hdot]
  · have hd : d ≠ '/' := by
      rintro rfl
      exact h.undivided (by simp [hcs, hds])
    simp [List.isPrefixOf, hc, hds, Ne.symm hd]

def below (p : Path) (names : List String) : Path := names.foldl (fun q name => q.join ⟨name⟩) p

theorem components_below (p : Path) {names : List String} (h : ∀ name ∈ names, IsName name) :
    (p.below names).components = p.components ++ names.map .normal := by
  induction names generalizing p with
  | nil => exact (List.append_nil _).symm
  | cons name names ih =>
    obtain ⟨hname, hnames⟩ := List.forall_mem_cons.mp h
    have hbelow : p.below (name :: names) = (p.join ⟨name⟩).below names := rfl
    rw [hbelow, ih _ hnames, components_join p hname, List.append_assoc]
    rfl

/-- A path below another one is not empty and does not ask for a directory. -/
theorem below_plain (p : Path) {names : List String} (hne : names ≠ [])
    (h : ∀ name ∈ names, IsName name) :
    (p.below names).text ≠ "" ∧ Tree.wantsDirectory (p.below names) = false := by
  obtain ⟨names, name, rfl⟩ := (List.eq_nil_or_concat' names).resolve_left hne
  have hname : IsName name := h name (by simp)
  have hbelow : p.below (names ++ [name]) = (p.below names).join ⟨name⟩ := by
    rw [below, List.foldl_append]
    rfl
  rw [hbelow]
  exact ⟨text_join_ne_empty _ hname, wantsDirectory_join _ hname⟩

end Path

/-! ## Walks below an entry -/

namespace Node

/-- Directories name their entries properly, each in its own way. -/
inductive Proper : Node → Prop
  | file (contents : ByteArray) (modified : Int) : Proper (.file contents modified)
  | link (target : Path) : Proper (.link target)
  | directory {entries : List (String × Node)} : (entries.map Prod.fst).Nodup →
      (∀ e ∈ entries, IsName e.1) → (∀ e ∈ entries, Proper e.2) → Proper (.directory entries)

variable {p q : Path} {n n' : Node} {entries : List (String × Node)} {name : String}
  {names : List String}

theorem Proper.inside (h : (Node.directory entries).Proper) :
    (entries.map Prod.fst).Nodup ∧ (∀ e ∈ entries, IsName e.1) ∧ ∀ e ∈ entries, e.2.Proper := by
  cases h with
  | directory hdistinct hnames hproper => exact ⟨hdistinct, hnames, hproper⟩

theorem get?_eq_some_iff_of_nodup (h : (entries.map Prod.fst).Nodup) :
    Table.get? name entries = some n ↔ (name, n) ∈ entries := by
  induction entries with
  | nil => simp [Table.get?]
  | cons e entries ih =>
    obtain ⟨k, inner⟩ := e
    obtain ⟨hk, hentries⟩ := List.nodup_cons.mp h
    by_cases hname : k = name
    · subst hname
      have hnot : (k, n) ∉ entries := by
        intro hmem
        have hname : (k, n).1 ∈ entries.map Prod.fst := List.mem_map_of_mem hmem
        exact hk hname
      simp [Table.get?, hnot, eq_comm]
    · simp [Table.get?, hname, ih hentries, Ne.symm hname]

theorem at?_cons_eq_some_iff (hdistinct : (entries.map Prod.fst).Nodup) :
    (directory entries).at? (name :: names) = some n ↔
      ∃ e ∈ entries, e.1 = name ∧ e.2.at? names = some n := by
  rw [Node.at?, Option.bind_eq_some_iff]
  constructor
  · rintro ⟨inner, hinner, hn⟩
    exact ⟨(name, inner), (get?_eq_some_iff_of_nodup hdistinct).mp hinner, rfl, hn⟩
  · rintro ⟨e, he, rfl, hn⟩
    exact ⟨e.2, (get?_eq_some_iff_of_nodup hdistinct).mpr he, hn⟩

theorem exists_directory_of_at?_cons (h : n.at? (name :: names) = some n') :
    ∃ entries, n = .directory entries := by
  cases n with
  | directory entries => exact ⟨entries, rfl⟩
  | file contents modified => cases h
  | link target => cases h

/-- The names on the way to a proper entry are proper, and so is the entry. -/
theorem Proper.at? (h : n.Proper) (hn : n.at? names = some n') :
    (∀ name ∈ names, IsName name) ∧ n'.Proper := by
  induction names generalizing n with
  | nil =>
    cases hn
    exact ⟨List.forall_mem_nil _, h⟩
  | cons name names ih =>
    obtain ⟨entries, rfl⟩ := exists_directory_of_at?_cons hn
    obtain ⟨hdistinct, hnames, hproper⟩ := h.inside
    obtain ⟨e, he, rfl, hrest⟩ := (at?_cons_eq_some_iff hdistinct).mp hn
    obtain ⟨hall, hn'⟩ := ih (hproper e he) hrest
    exact ⟨List.forall_mem_cons.mpr ⟨hnames e he, hall⟩, hn'⟩

theorem walkEntries_eq_flatMap (p : Path) (entries : List (String × Node)) :
    walkEntries p entries = entries.flatMap fun e => e.2.walk (p.join ⟨e.1⟩) := by
  induction entries with
  | nil => rfl
  | cons e entries ih => rw [walkEntries, ih, List.flatMap_cons]

/-- **A walk comes by what stands at a place below**, under the path with the names on the way. -/
theorem Proper.mem_walk (h : n.Proper) :
    (q, n') ∈ n.walk p ↔ ∃ names, n.at? names = some n' ∧ q = p.below names := by
  have hleaf : ∀ {leaf : Node} {p : Path}, leaf.isDirectory = false →
      ((q, n') ∈ [(p, leaf)] ↔ ∃ names, leaf.at? names = some n' ∧ q = p.below names) := by
    intro leaf p hleaf
    rw [List.mem_singleton, Prod.mk.injEq]
    constructor
    · rintro ⟨rfl, rfl⟩
      exact ⟨[], rfl, rfl⟩
    · rintro ⟨names, hn, rfl⟩
      cases names with
      | nil => exact ⟨rfl, (Option.some.inj hn).symm⟩
      | cons name names =>
        obtain ⟨entries, rfl⟩ := exists_directory_of_at?_cons hn
        cases hleaf
  induction h generalizing p with
  | file contents modified => exact hleaf rfl
  | link target => exact hleaf rfl
  | directory hdistinct _ _ ih =>
    rw [walk, List.mem_cons, walkEntries_eq_flatMap, List.mem_flatMap]
    constructor
    · rintro (heq | ⟨e, he, hmem⟩)
      · cases heq
        exact ⟨[], rfl, rfl⟩
      · obtain ⟨names, hn, hq⟩ := (ih e he).mp hmem
        exact ⟨e.1 :: names, (at?_cons_eq_some_iff hdistinct).mpr ⟨e, he, rfl, hn⟩, hq⟩
    · rintro ⟨names, hn, rfl⟩
      cases names with
      | nil =>
        cases hn
        exact .inl rfl
      | cons name names =>
        obtain ⟨e, he, rfl, hrest⟩ := (at?_cons_eq_some_iff hdistinct).mp hn
        exact .inr ⟨e, he, (ih e he).mpr ⟨names, hrest, rfl⟩⟩

theorem Proper.mem_walkEntries (h : (Node.directory entries).Proper) :
    (q, n) ∈ walkEntries p entries ↔
      ∃ name names, (Node.directory entries).at? (name :: names) = some n ∧
        q = p.below (name :: names) := by
  obtain ⟨hdistinct, -, hproper⟩ := h.inside
  rw [walkEntries_eq_flatMap, List.mem_flatMap]
  constructor
  · rintro ⟨e, he, hmem⟩
    obtain ⟨names, hn, hq⟩ := (hproper e he).mem_walk.mp hmem
    exact ⟨e.1, names, (at?_cons_eq_some_iff hdistinct).mpr ⟨e, he, rfl, hn⟩, hq⟩
  · rintro ⟨name, names, hn, rfl⟩
    obtain ⟨e, he, rfl, hrest⟩ := (at?_cons_eq_some_iff hdistinct).mp hn
    exact ⟨e, he, (hproper e he).mem_walk.mpr ⟨names, hrest, rfl⟩⟩

theorem Proper.components_of_mem_walkEntries (h : (Node.directory entries).Proper) {e : Path × Node}
    (he : e ∈ walkEntries p entries) :
    ∃ name names, e.1.components = p.components ++ .normal name :: names := by
  obtain ⟨name, names, hn, hq⟩ := h.mem_walkEntries.mp he
  exact ⟨name, names.map .normal, by rw [hq, Path.components_below p (h.at? hn).1]; rfl⟩

theorem Proper.nodup_walk (h : n.Proper) (p : Path) :
    ((n.walk p).map fun e => e.1.components).Nodup := by
  induction h generalizing p with
  | file contents modified => exact List.nodup_singleton _
  | link target => exact List.nodup_singleton _
  | @directory entries hdistinct hnames hproper ih =>
    rw [walk, List.map_cons, List.nodup_cons]
    constructor
    · intro hmem
      obtain ⟨e, he, hsame⟩ := List.mem_map.mp hmem
      obtain ⟨name, names, hcomponents⟩ :=
        (Proper.directory hdistinct hnames hproper).components_of_mem_walkEntries he
      rw [hcomponents] at hsame
      exact absurd (List.append_right_eq_self.mp hsame) (List.cons_ne_nil _ _)
    · rw [walkEntries_eq_flatMap, List.map_flatMap, List.nodup_flatMap]
      refine ⟨fun e he => ih e he _, ?_⟩
      refine (List.pairwise_map.mp hdistinct).imp_of_mem ?_
      intro a b ha hb hne cs hcs hcs'
      have hbegins : ∀ e ∈ entries, cs ∈ ((e.2.walk (p.join ⟨e.1⟩)).map fun e => e.1.components) →
          ∃ names, cs = p.components ++ .normal e.1 :: names := by
        intro e he hcs
        obtain ⟨⟨q, n⟩, hmem, rfl⟩ := List.mem_map.mp hcs
        obtain ⟨names, hn, rfl⟩ := (hproper e he).mem_walk.mp hmem
        refine ⟨names.map .normal, ?_⟩
        rw [Path.components_below _ ((hproper e he).at? hn).1, Path.components_join p (hnames e he),
          List.append_assoc]
        rfl
      obtain ⟨names, hnames⟩ := hbegins a ha hcs
      obtain ⟨names', hnames'⟩ := hbegins b hb hcs'
      rw [hnames] at hnames'
      have hheads := List.append_cancel_left hnames'
      injection hheads with hheads
      injection hheads with hheads
      exact hne hheads

end Node

/-! ## Walks in a tree -/

namespace Tree

def Proper (t : Tree) : Prop := t.root.Proper

/-- What a walk below a path meets behind the given names: a link at the path itself is met as such,
and followed to what lies below. -/
inductive Meets (t : Tree) (p : Path) : List String → Node → Prop
  | itself {place : List String} {n : Node} :
      t.locate false p = .ok (place, some n) → Meets t p [] n
  | inside {d n : Node} {name : String} {names : List String} : t.find p = .ok d →
      d.at? (name :: names) = some n → Meets t p (name :: names) n

variable {t : Tree} {p q : Path} {n d : Node} {names : List String} {extension : String}

theorem Proper.of_find (h : t.Proper) (hd : t.find p = .ok d) : d.Proper := by
  obtain ⟨-, -, place, hleads⟩ := find_iff_leadsTo.mp hd
  exact (Node.Proper.at? h hleads.at?).2

theorem Proper.isName (h : t.Proper) (hmeets : t.Meets p names n) :
    ∀ name ∈ names, IsName name := by
  cases hmeets with
  | itself => exact List.forall_mem_nil _
  | inside hd hn => exact ((h.of_find hd).at? hn).1

/-- A walk begins with what is at the path and goes on with what is in the directory found there. -/
theorem walk_eq (t : Tree) (p : Path) : t.walk p =
    match t.locate false p, t.find p with
    | .ok (_, some n), .ok (.directory entries) => (p, n) :: Node.walkEntries p entries
    | .ok (_, some n), _ => [(p, n)]
    | _, _ => [] := by
  unfold walk
  rcases hlocate : t.locate false p with e | ⟨place, _ | n⟩
  · rfl
  · rfl
  · have hfound : (∀ target, n ≠ .link target) → t.find p = .ok n := find_of_locate hlocate
    cases n with
    | link target =>
      cases t.find p with
      | error e => rfl
      | ok d => cases d <;> rfl
    | file contents modified =>
      rw [hfound fun _ h => by cases h]
      rfl
    | directory entries =>
      rw [hfound fun _ h => by cases h]
      rfl

theorem meets_nil_iff : t.Meets p [] n ↔ ∃ place, t.locate false p = .ok (place, some n) := by
  constructor
  · rintro ⟨hlocate⟩
    exact ⟨_, hlocate⟩
  · rintro ⟨place, hlocate⟩
    exact .itself hlocate

theorem meets_iff (hne : names ≠ []) : t.Meets p names n ↔
    ∃ d, t.find p = .ok d ∧ d.at? names = some n := by
  obtain ⟨name, names, rfl⟩ := List.exists_cons_of_ne_nil hne
  constructor
  · rintro (_ | ⟨hd, hn⟩)
    exact ⟨_, hd, hn⟩
  · rintro ⟨d, hd, hn⟩
    exact .inside hd hn

/-- **A walk comes by what it meets**, under the path with the names on the way. -/
theorem Proper.mem_walk (h : t.Proper) :
    (q, n) ∈ t.walk p ↔ ∃ names, t.Meets p names n ∧ q = p.below names := by
  -- what is met is met at the path itself or inside of a directory
  have hmeets : (∃ names, t.Meets p names n ∧ q = p.below names) ↔
      (∃ place, t.locate false p = .ok (place, some n) ∧ q = p) ∨
        ∃ entries, t.find p = .ok (.directory entries) ∧ (q, n) ∈ Node.walkEntries p entries := by
    constructor
    · rintro ⟨_ | ⟨name, names⟩, hmeets, rfl⟩
      · obtain ⟨place, hlocate⟩ := meets_nil_iff.mp hmeets
        exact .inl ⟨place, hlocate, rfl⟩
      · obtain ⟨d, hd, hn⟩ := (meets_iff (List.cons_ne_nil _ _)).mp hmeets
        obtain ⟨entries, rfl⟩ := Node.exists_directory_of_at?_cons hn
        exact .inr ⟨entries, hd, (h.of_find hd).mem_walkEntries.mpr ⟨name, names, hn, rfl⟩⟩
    · rintro (⟨place, hlocate, rfl⟩ | ⟨entries, hd, hmem⟩)
      · exact ⟨[], .itself hlocate, rfl⟩
      · obtain ⟨name, names, hn, rfl⟩ := (h.of_find hd).mem_walkEntries.mp hmem
        exact ⟨name :: names, .inside hd hn, rfl⟩
  rw [hmeets, walk_eq]
  rcases hlocate : t.locate false p with e | ⟨place, _ | n₀⟩
  · have hnone : ∀ d, t.find p ≠ .ok d := fun d hd => by
      simpa [hlocate] using exists_locate_of_find hd
    simp [hnone]
  · have hnone : ∀ d, t.find p ≠ .ok d := fun d hd => by
      simpa [hlocate] using exists_locate_of_find hd
    simp [hnone]
  · rcases hfind : t.find p with e | ⟨contents, modified⟩ | entries | target
    · simp [eq_comm, and_comm]
    · simp [eq_comm, and_comm]
    · simp [eq_comm, and_comm]
    · simp [eq_comm, and_comm]

theorem Proper.nodup_walk (h : t.Proper) (p : Path) :
    ((t.walk p).map fun e => e.1.components).Nodup := by
  rw [walk_eq]
  split
  · next hd =>
    have hwalk := (h.of_find hd).nodup_walk p
    rwa [Node.walk] at hwalk
  · exact List.nodup_singleton _
  · exact List.nodup_nil

/-- **The files with an extension.** -/
theorem Proper.mem_filesWithExtension (h : t.Proper) : q ∈ t.filesWithExtension p extension ↔
    t.contains p = true ∧ q.extension? = some extension ∧
      ∃ names n, t.Meets p names n ∧ n.isDirectory = false ∧ q = p.below names := by
  unfold filesWithExtension
  split
  · next hp =>
    simp only [List.mem_mergeSort, List.mem_map, List.mem_filter, Bool.and_eq_true,
      Bool.not_eq_true', beq_iff_eq, hp, true_and]
    constructor
    · rintro ⟨⟨q, n⟩, ⟨hmem, hdirectory, hextension⟩, rfl⟩
      obtain ⟨names, hmeets, hq⟩ := h.mem_walk.mp hmem
      exact ⟨hextension, names, n, hmeets, hdirectory, hq⟩
    · rintro ⟨hextension, names, n, hmeets, hdirectory, hq⟩
      exact ⟨(q, n), ⟨h.mem_walk.mpr ⟨names, hmeets, hq⟩, hdirectory, hextension⟩, rfl⟩
  · next hp => simp [hp]

/-- The files are in the order of their paths, each once. -/
theorem Proper.ascending_filesWithExtension (h : t.Proper) (p : Path) (extension : String) :
    (t.filesWithExtension p extension).Pairwise Path.Before := by
  unfold filesWithExtension
  split
  · generalize hentries : ((t.walk p).filter fun e =>
      !e.2.isDirectory && e.1.extension? == some extension) = entries
    have hdistinct : ((entries.map Prod.fst).mergeSort fun a b => a.order b != .gt).Pairwise
        fun a b => a.components ≠ b.components := by
      refine List.pairwise_map.mp ?_
      have hperm := (List.mergeSort_perm (entries.map Prod.fst) fun a b => a.order b != .gt)
      refine (hperm.map Path.components).nodup_iff.mpr ?_
      rw [List.map_map, ← hentries]
      exact (h.nodup_walk p).sublist (List.Sublist.map _ List.filter_sublist)
    have hsorted : ((entries.map Prod.fst).mergeSort fun a b => a.order b != .gt).Pairwise
        fun a b => (a.order b != .gt) = true :=
      List.pairwise_mergeSort Path.order_ne_gt_trans Path.order_ne_gt_total _
    refine (hsorted.and hdistinct).imp ?_
    rintro a b ⟨hle, hne⟩
    cases horder : a.order b with
    | lt => exact horder
    | eq => exact absurd (Path.order_eq_eq_iff.mp horder) hne
    | gt => simp [horder] at hle
  · exact List.Pairwise.nil

end Tree

end PackHost.Files
