import PackHost.Files.Path

/-!
# The order of paths

Paths are ordered by their components, one after another. The order is total, and paths are equal in
it exactly if they have the same components, however they are written (`Path.order_eq_eq_iff`).
-/

namespace PackHost.Files

namespace Component

theorem order_eq_compareLex : order = compareLex (compareOn rank) (compareOn text) := rfl

instance : Std.TransCmp order := by
  rw [order_eq_compareLex]
  infer_instance

instance : Std.LawfulEqCmp order where
  eq_of_compare {a b} h := by
    obtain ⟨hrank, htext⟩ := Ordering.then_eq_eq.mp h
    have hrank : a.rank = b.rank := Std.LawfulEqCmp.eq_of_compare hrank
    have htext : a.text = b.text := Std.LawfulEqCmp.eq_of_compare htext
    cases a <;> cases b <;> first | exact congrArg normal htext | rfl | cases hrank

end Component

namespace Path

theorem orderComponents_eq_compareLex : orderComponents = List.compareLex Component.order := by
  funext as bs
  induction as generalizing bs with
  | nil => cases bs <;> rfl
  | cons a as ih =>
    cases bs with
    | nil => rfl
    | cons b bs => rw [orderComponents, List.compareLex_cons_cons, ih]

instance : Std.TransCmp orderComponents := by
  rw [orderComponents_eq_compareLex]
  infer_instance

instance : Std.LawfulEqCmp orderComponents := by
  rw [orderComponents_eq_compareLex]
  infer_instance

instance : Std.TransCmp order where
  eq_swap {p q} := by
    show orderComponents p.components q.components = _
    exact Std.OrientedCmp.eq_swap
  isLE_trans {p q r} h h' := by
    have hle : (orderComponents p.components q.components).isLE = true := h
    show (orderComponents p.components r.components).isLE = true
    exact Std.TransCmp.isLE_trans hle h'

theorem same_iff {p q : Path} : p.same q = true ↔ p.components = q.components := beq_iff_eq

theorem order_eq_eq_iff {p q : Path} : p.order q = .eq ↔ p.components = q.components := by
  show orderComponents p.components q.components = .eq ↔ _
  exact Std.LawfulEqCmp.compare_eq_iff_eq

theorem order_ne_gt_eq_isLE (p q : Path) : (p.order q != .gt) = (p.order q).isLE := by
  cases p.order q <;> rfl

theorem order_ne_gt_trans (p q r : Path) (h : (p.order q != .gt) = true)
    (h' : (q.order r != .gt) = true) : (p.order r != .gt) = true := by
  rw [order_ne_gt_eq_isLE] at h h' ⊢
  exact Std.TransCmp.isLE_trans h h'

theorem order_ne_gt_total (p q : Path) :
    ((p.order q != .gt) || (q.order p != .gt)) = true := by
  have hswap : p.order q = (q.order p).swap := Std.OrientedCmp.eq_swap
  rw [hswap]
  cases q.order p <;> rfl

/-- The first path comes before the second one. -/
def Before (p q : Path) : Prop := p.order q = .lt

theorem Before.trans {p q r : Path} (h : p.Before q) (h' : q.Before r) : p.Before r :=
  Std.TransCmp.lt_trans h h'

theorem Before.components_ne {p q : Path} (h : p.Before q) : p.components ≠ q.components := by
  intro heq
  rw [Before, order_eq_eq_iff.mpr heq] at h
  cases h

/-- Two lists in ascending order with the same paths are equal. -/
theorem eq_of_before {ps qs : List Path} (h : ps.Pairwise Before) (h' : qs.Pairwise Before)
    (mem : ∀ p, p ∈ ps ↔ p ∈ qs) : ps = qs := by
  have hnodup : ∀ {ps : List Path}, ps.Pairwise Before → ps.Nodup := fun h =>
    h.imp fun hbefore heq => hbefore.components_ne (congrArg components heq)
  have hperm : ps.Perm qs := (List.perm_ext_iff_of_nodup (hnodup h) (hnodup h')).mpr mem
  refine hperm.eq_of_pairwise (fun p q _ _ hpq hqp => ?_) h h'
  exact absurd rfl (hpq.trans hqp).components_ne

end Path

end PackHost.Files
