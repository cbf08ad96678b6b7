import Mathlib.Logic.Relation
import PackHost.Proofs.Files.Write

/-!
# Trees that grow

`Tree.Adds` says that one entry was put where nothing was, and `Tree.Grows` that this happened
several times. What was found before is found at the same place afterwards (`Grows.leadsTo`), and it
is the same if nothing was put below it. So a directory shows the same files as before, if what was
put lies elsewhere and what led nowhere still leads nowhere (`Grows.filesWithExtension_eq`).
-/

namespace PackHost.Files

/-! ## Entries besides the new one -/

namespace Node

variable {root n x : Node} {place q : List String}

/-- What neither lies above the new entry nor below it stays. -/
theorem Vacant.at?_put_of_apart (h : Vacant place root) (n : Node) (habove : ¬q <+: place)
    (hbelow : ¬place <+: q) : (put n place root).at? q = root.at? q := by
  induction h generalizing q with
  | @here name entries _ =>
    obtain ⟨first, rest, rfl⟩ := List.exists_cons_of_ne_nil fun h : q = [] =>
      habove (h ▸ List.nil_prefix)
    have hne : first ≠ name := by
      rintro rfl
      exact hbelow (List.cons_prefix_cons.mpr ⟨rfl, List.nil_prefix⟩)
    simp only [put, at?, child?, Table.get?_insert_of_ne hne]
  | @inside name rest entries inner hinner _ ih =>
    obtain ⟨first, names, rfl⟩ := List.exists_cons_of_ne_nil fun h : q = [] =>
      habove (h ▸ List.nil_prefix)
    by_cases hne : first = name
    · subst hne
      have hrest := ih (fun h => habove (List.cons_prefix_cons.mpr ⟨rfl, h⟩))
        fun h => hbelow (List.cons_prefix_cons.mpr ⟨rfl, h⟩)
      simp only [put, at?, child?, Table.get?_insert_self, Option.bind_some, hinner,
        Option.getD_some]
      exact hrest
    · simp only [put, at?, child?, Table.get?_insert_of_ne hne]

/-- Above a place for an entry there are directories. -/
theorem Vacant.exists_directory_above (h : Vacant place root) (habove : q <+: place)
    (hne : q ≠ place) : ∃ entries, root.at? q = some (.directory entries) := by
  induction h generalizing q with
  | @here name entries _ =>
    cases q with
    | nil => exact ⟨entries, rfl⟩
    | cons first rest =>
      obtain ⟨rfl, hrest⟩ := List.cons_prefix_cons.mp habove
      rw [List.prefix_nil.mp hrest] at hne
      exact absurd rfl hne
  | @inside name rest entries inner hinner _ ih =>
    cases q with
    | nil => exact ⟨entries, rfl⟩
    | cons first names =>
      obtain ⟨rfl, hnames⟩ := List.cons_prefix_cons.mp habove
      obtain ⟨es, hes⟩ := ih hnames fun h => hne (h ▸ rfl)
      exact ⟨es, by simpa only [at?, child?, hinner, Option.bind_some] using hes⟩

/-- Where nothing is, there is nothing below. -/
theorem not_prefix_of_at? (hnothing : root.at? place = none) (hq : root.at? q = some x) :
    ¬place <+: q := by
  rintro ⟨rest, rfl⟩
  rw [at?_append, hnothing] at hq
  cases hq

end Node

/-! ## One entry more -/

namespace Tree

variable {t t' t'' : Tree} {p : Path} {last : Bool} {cs : List Component} {n : Node}
  {place q : List String} {extension : String}

/-- The second tree has one entry more, which is no link, at a place where nothing is in the first
one. -/
structure Adds (t : Tree) (place : List String) (t' : Tree) : Prop where
  vacant : Node.Vacant place t.root
  nothing : t.root.at? place = none
  entry : ∃ n : Node, (∀ target, n ≠ .link target) ∧ t'.root = Node.put n place t.root
  home : t'.home = t.home

/-- What is at a place once a tree has grown: the same, or still a directory, below which something
was put at one of the given places. -/
def Outgrown (P : List String → Prop) (q : List String) (n n' : Node) : Prop :=
  n' = n ∨ n.isDirectory = true ∧ n'.isDirectory = true ∧ ∃ place, P place ∧ q <+: place

/-- **Look-ups lead to the same place** after something was added. -/
theorem Adds.leadsTo (h : t.Adds place t') (hleads : t.LeadsTo last cs q n) :
    ∃ n', t'.LeadsTo last cs q n' ∧ Outgrown (· = place) q n n' := by
  obtain ⟨new, hnew, hroot⟩ := h.entry
  have hfollow := follow_put h.vacant hnew (follow_of_leads hleads)
  have hbelow := Node.not_prefix_of_at? h.nothing hleads.at?
  rw [← hroot] at hfollow
  have hthere : ∀ n', t'.root.at? q = some n' → t'.LeadsTo last cs q n' := by
    intro n' hn'
    rw [hn'] at hfollow
    rw [LeadsTo, h.home]
    exact leads_of_follow hfollow
  by_cases habove : q <+: place
  · have hne : q ≠ place := fun heq => hbelow (heq ▸ List.prefix_rfl)
    obtain ⟨entries, hentries⟩ := h.vacant.exists_directory_above habove hne
    obtain ⟨entries', hentries', -⟩ := h.vacant.directory_put new hentries
    rw [hleads.at?] at hentries
    cases hentries
    exact ⟨_, hthere _ (hroot ▸ hentries'), .inr ⟨rfl, rfl, place, rfl, habove⟩⟩
  · refine ⟨n, hthere n ?_, .inl rfl⟩
    rw [hroot, h.vacant.at?_put_of_apart new habove hbelow]
    exact hleads.at?

/-! ## Several entries more -/

/-- Entries were added one after another, each at one of the given places. -/
def Grows (P : List String → Prop) : Tree → Tree → Prop :=
  Relation.ReflTransGen fun t t' => ∃ place, P place ∧ t.Adds place t'

namespace Grows

variable {P Q : List String → Prop}

theorem refl (t : Tree) : Grows P t t := Relation.ReflTransGen.refl

theorem trans (h : Grows P t t') (h' : Grows P t' t'') : Grows P t t'' :=
  Relation.ReflTransGen.trans h h'

theorem adds (h : t.Adds place t') (hplace : P place) : Grows P t t' :=
  Relation.ReflTransGen.single ⟨place, hplace, h⟩

theorem imp (h : Grows P t t') (himp : ∀ place, P place → Q place) : Grows Q t t' :=
  Relation.ReflTransGen.mono (fun _ _ ⟨place, hplace, h⟩ => ⟨place, himp place hplace, h⟩) _ _ h

/-- **Look-ups lead to the same place** in a tree that has grown. -/
theorem leadsTo (h : Grows P t t') (hleads : t.LeadsTo last cs q n) :
    ∃ n', t'.LeadsTo last cs q n' ∧ Outgrown P q n n' := by
  induction h with
  | refl => exact ⟨n, hleads, .inl rfl⟩
  | @tail t₁ t₂ _ hstep ih =>
    obtain ⟨place, hplace, hadds⟩ := hstep
    obtain ⟨n₁, hleads₁, hout₁⟩ := ih
    obtain ⟨n₂, hleads₂, hout₂⟩ := hadds.leadsTo hleads₁
    refine ⟨n₂, hleads₂, ?_⟩
    rcases hout₂ with rfl | ⟨hn₁, hn₂, _, rfl, hq⟩
    · exact hout₁
    · refine .inr ⟨?_, hn₂, _, hplace, hq⟩
      rcases hout₁ with rfl | ⟨hn, -⟩
      · exact hn₁
      · exact hn

theorem find (h : Grows P t t') (hfind : t.find p = .ok n) : ∃ q n', t.LeadsTo true p.components q n ∧
    t'.find p = .ok n' ∧ Outgrown P q n n' := by
  obtain ⟨htext, hwants, q, hleads⟩ := find_iff_leadsTo.mp hfind
  obtain ⟨n', hleads', hout⟩ := h.leadsTo hleads
  refine ⟨q, n', hleads, find_iff_leadsTo.mpr ⟨htext, fun hw => ?_, q, hleads'⟩, hout⟩
  rcases hout with rfl | ⟨-, hn', -⟩
  · exact hwants hw
  · exact hn'

theorem contains (h : Grows P t t') (hp : t.contains p = true) : t'.contains p = true := by
  rcases hfind : t.find p with e | n
  · rw [Tree.contains, hfind] at hp
    cases hp
  · obtain ⟨_, n', -, hfind', -⟩ := h.find hfind
    rw [Tree.contains, hfind']

theorem read (h : Grows P t t') (hp : t.contains p = true) : t'.read p = t.read p := by
  rcases hfind : t.find p with e | n
  · rw [Tree.contains, hfind] at hp
    cases hp
  · obtain ⟨_, n', -, hfind', hout⟩ := h.find hfind
    rw [Tree.read, Tree.read, hfind, hfind']
    rcases hout with rfl | ⟨hn, hn', -⟩
    · rfl
    · obtain ⟨es, rfl⟩ := Node.exists_of_isDirectory hn
      obtain ⟨es', rfl⟩ := Node.exists_of_isDirectory hn'
      rfl

/-- **A directory is walked through as before**, if nothing was put below it. -/
theorem walk_eq (h : Grows P t t') (hp : t.contains p = true)
    (apart : ∀ q n place, t.LeadsTo true p.components q n → P place → ¬q <+: place) :
    t'.walk p = t.walk p := by
  rcases hfind : t.find p with e | n
  · rw [Tree.contains, hfind] at hp
    cases hp
  obtain ⟨q, n', hleads, hfind', hout⟩ := h.find hfind
  have hsame : n' = n := by
    rcases hout with rfl | ⟨-, -, place, hplace, hq⟩
    · rfl
    · exact absurd hq (apart q n place hleads hplace)
  subst hsame
  obtain ⟨q₀, n₀, hlocate⟩ := exists_locate_of_find hfind
  obtain ⟨htext, hwants, hleads₀⟩ := locate_eq_ok_iff.mp hlocate
  obtain ⟨n₁, hleads₁, hout₁⟩ := h.leadsTo hleads₀
  -- a link at the path is still there, and anything else is what was found
  have hstays : n₁ = n₀ := by
    rcases hout₁ with rfl | ⟨hn₀, -, place, hplace, hq⟩
    · rfl
    · refine absurd hq (apart q₀ n₀ place ?_ hplace)
      cases hw : wantsDirectory p with
      | true => rwa [hw] at hleads₀
      | false =>
        rw [hw] at hleads₀
        refine hleads₀.followed fun target hlink => ?_
        rw [hlink] at hn₀
        cases hn₀
  subst hstays
  have hlocate' : t'.locate false p = .ok (q₀, some n₁) :=
    locate_eq_ok_iff.mpr ⟨htext, hwants, hleads₁⟩
  rw [Tree.walk_eq, Tree.walk_eq, hlocate, hlocate', hfind, hfind']

end Grows

/-! ## Directories apart -/

def Enters (t : Tree) (p : Path) (place : List String) : Prop :=
  ∃ entries, t.LeadsTo true p.components place (.directory entries)

theorem Grows.enters {P : List String → Prop} (h : Grows P t t') (hp : t.Enters p place) :
    t'.Enters p place := by
  obtain ⟨entries, hleads⟩ := hp
  obtain ⟨n', hleads', rfl | ⟨-, hn', -⟩⟩ := h.leadsTo hleads
  · exact ⟨entries, hleads'⟩
  · obtain ⟨entries', rfl⟩ := Node.exists_of_isDirectory hn'
    exact ⟨entries', hleads'⟩

theorem Enters.contains (h : t.Enters p place) (htext : p.text ≠ "") : t.contains p = true := by
  obtain ⟨entries, hleads⟩ := h
  rw [Tree.contains, find_iff_leadsTo.mpr ⟨htext, fun _ => rfl, place, hleads⟩]

end Tree

end PackHost.Files
