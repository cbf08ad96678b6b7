import PackHost.Files.Watch
import PackHost.Proofs.Files.Order

/-!
# Files with their times

Times are in ascending order of their paths, each path once, so that what is found under a path is
what stands there (`Times.Ascending.get?_eq_some_of_mem`).
-/

namespace PackHost.Files.Times

def Ascending (ts : Times) : Prop := ts.Pairwise fun a b => a.1.Before b.1

variable {ts : Times} {p q : Path} {time : Int}

/-! ## Look-up -/

theorem get?_congr (h : p.components = q.components) (ts : Times) : ts.get? p = ts.get? q := by
  induction ts with
  | nil => rfl
  | cons e ts ih => rw [get?, get?, Path.same, Path.same, h, ih]

theorem get?_insert (ts : Times) (p q : Path) (time : Int) :
    (ts.insert p time).get? q = if p.components = q.components then some time else ts.get? q := by
  have hhead : ∀ (e : Path) (a : Int) (es : Times), get? q ((e, a) :: es) =
      if e.components = q.components then some a else get? q es := by
    intro e a es
    simp only [get?, Path.same_iff]
  induction ts with
  | nil => rw [insert, hhead]
  | cons e ts ih =>
    unfold insert
    split
    · rw [hhead]
    · next horder =>
      have heq := Path.order_eq_eq_iff.mp horder
      rw [hhead, hhead, heq]
      split <;> rfl
    · next horder =>
      rw [hhead, hhead, ih]
      by_cases he : e.1.components = q.components
      · have hne : p.components ≠ q.components := by
          intro hp
          rw [Path.order_eq_eq_iff.mpr (hp.trans he.symm)] at horder
          cases horder
        rw [if_pos he, if_neg hne, if_pos he]
      · rw [if_neg he, if_neg he]

/-- What is found stands there, perhaps written in another way. -/
theorem exists_of_get?_eq_some (h : ts.get? p = some time) :
    ∃ e ∈ ts, e.1.components = p.components ∧ e.2 = time := by
  induction ts with
  | nil => cases h
  | cons e ts ih =>
    unfold get? at h
    split at h
    · next hsame => exact ⟨e, List.mem_cons_self, Path.same_iff.mp hsame, Option.some.inj h⟩
    · obtain ⟨e', he', hfound⟩ := ih h
      exact ⟨e', List.mem_cons_of_mem _ he', hfound⟩

/-! ## Insertion -/

theorem mem_insert {e : Path × Int} (h : e ∈ ts.insert p time) :
    e = (p, time) ∨ e ∈ ts ∨
      ∃ old, (e.1, old) ∈ ts ∧ e.1.components = p.components ∧ e.2 = time := by
  induction ts with
  | nil => exact .inl (List.mem_singleton.mp h)
  | cons f ts ih =>
    unfold insert at h
    split at h
    · rcases List.mem_cons.mp h with h | h
      · exact .inl h
      · exact .inr (.inl h)
    · next horder =>
      rcases List.mem_cons.mp h with rfl | h
      · exact .inr (.inr ⟨f.2, List.mem_cons_self, (Path.order_eq_eq_iff.mp horder).symm, rfl⟩)
      · exact .inr (.inl (List.mem_cons_of_mem _ h))
    · rcases List.mem_cons.mp h with rfl | h
      · exact .inr (.inl List.mem_cons_self)
      · rcases ih h with h | h | ⟨old, hold, hrest⟩
        · exact .inl h
        · exact .inr (.inl (List.mem_cons_of_mem _ h))
        · exact .inr (.inr ⟨old, List.mem_cons_of_mem _ hold, hrest⟩)

theorem Ascending.insert (h : ts.Ascending) (p : Path) (time : Int) :
    Ascending (ts.insert p time) := by
  induction ts with
  | nil => exact List.pairwise_singleton _ _
  | cons f ts ih =>
    obtain ⟨hfirst, hts⟩ := List.pairwise_cons.mp h
    unfold Times.insert
    split
    · next horder =>
      refine List.pairwise_cons.mpr ⟨fun e he => ?_, h⟩
      rcases List.mem_cons.mp he with rfl | he
      · exact horder
      · exact Path.Before.trans horder (hfirst e he)
    · exact List.pairwise_cons.mpr ⟨hfirst, hts⟩
    · next horder =>
      have hbefore : f.1.Before p := Std.OrientedCmp.gt_iff_lt.mp horder
      refine List.pairwise_cons.mpr ⟨fun e he => ?_, ih hts⟩
      rcases mem_insert he with rfl | he | ⟨old, hold, -, -⟩
      · exact hbefore
      · exact hfirst e he
      · exact hfirst (e.1, old) hold

/-- Since no path occurs twice, what stands under a path is what is found there. -/
theorem Ascending.get?_eq_some_of_mem (h : ts.Ascending) {e : Path × Int} (he : e ∈ ts) :
    ts.get? e.1 = some e.2 := by
  induction ts with
  | nil => cases he
  | cons f ts ih =>
    obtain ⟨hfirst, hts⟩ := List.pairwise_cons.mp h
    unfold get?
    rcases List.mem_cons.mp he with rfl | he
    · rw [if_pos (Path.same_iff.mpr rfl)]
    · have hne := (hfirst e he).components_ne
      rw [if_neg (fun hsame => hne (Path.same_iff.mp hsame)), ih hts he]

end PackHost.Files.Times
