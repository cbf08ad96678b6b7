import Mathlib.Data.List.Nodup
import PackHost.Proofs.Pack.Order
import PackHost.Proofs.Text.Bytes

/-!
# Putting units in order

Units are compared by priority, the higher one first, and then by the bytes of their locations. The
comparison is a total preorder, and only units with the same priority and the same location are
equal in it. Units that are put into a pack one by one end up sorted, equal ones in the order in
which they came (`filter_units_pushAll`); if their locations are different, the order in which they
came does not show (`units_pushAll_comm`), and a location finds its unit (`unit?_eq_some_iff`).
-/

namespace PackHost.Pack

variable {κ : Type}

/-! ## The comparison -/

namespace ScriptFile

theorem before_iff_bytes {a b : ScriptFile} : a.Before b ↔ b.priority < a.priority ∨
    a.priority = b.priority ∧ Text.bytes a.location ≤ Text.bytes b.location := by
  rw [Before, Text.bytes_le_iff]

theorem order_eq_compareLex :
    order = compareLex (fun a b => compare b.priority a.priority) (compareOn location) := rfl

instance : Std.TransCmp order := by
  have hpriority : Std.TransCmp fun a b : ScriptFile => compare b.priority a.priority :=
    inferInstanceAs (Std.TransCmp fun a b : ScriptFile => compareOn priority b a)
  rw [order_eq_compareLex]
  infer_instance

theorem order_eq_eq_iff {a b : ScriptFile} :
    a.order b = .eq ↔ a.priority = b.priority ∧ a.location = b.location := by
  rw [order, Ordering.then_eq_eq, Int.compare_eq_eq, Std.LawfulEqCmp.compare_eq_iff_eq, eq_comm]

theorem isLE_order_iff {a b : ScriptFile} : (a.order b).isLE = true ↔ a.Before b := by
  rw [Ordering.isLE_iff_eq_lt_or_eq_eq]
  constructor
  · rintro (hlt | heq)
    · exact before_of_order_eq_lt hlt
    · obtain ⟨hpriority, hlocation⟩ := order_eq_eq_iff.mp heq
      exact .inr ⟨hpriority, hlocation ▸ Std.le_refl _⟩
  · rintro (hpriority | ⟨hpriority, hlocation⟩)
    · exact .inl (Ordering.then_eq_lt.mpr (.inl (Int.compare_eq_lt.mpr hpriority)))
    · rcases Std.le_iff_lt_or_eq.mp hlocation with hlt | heq
      · exact .inl (Ordering.then_eq_lt.mpr
          (.inr ⟨Int.compare_eq_eq.mpr hpriority.symm, compare_location_eq_lt.mpr hlt⟩))
      · exact .inr (order_eq_eq_iff.mpr ⟨hpriority, heq⟩)

end ScriptFile

instance : Std.TransCmp ScriptUnit.order where
  eq_swap := (inferInstance : Std.TransCmp ScriptFile.order).eq_swap
  isLE_trans := (inferInstance : Std.TransCmp ScriptFile.order).isLE_trans

/-! ## One more unit -/

def ScriptUnit.hasKey (priority : Int) (location : String) (u : ScriptUnit) : Bool :=
  u.file.priority = priority ∧ u.location = location

theorem ScriptUnit.order_eq_of_hasKey {priority : Int} {location : String} {u v : ScriptUnit}
    (hu : u.hasKey priority location = true) (hv : v.hasKey priority location = true) :
    u.order v = .eq := by
  obtain ⟨hpu, hlu⟩ := of_decide_eq_true hu
  obtain ⟨hpv, hlv⟩ := of_decide_eq_true hv
  exact ScriptFile.order_eq_eq_iff.mpr ⟨hpu.trans hpv.symm, hlu.trans hlv.symm⟩

/-- A unit comes behind those that are equal to it. -/
theorem filter_insertUnit {us : List ScriptUnit} (h : InOrder us) (u : ScriptUnit) (priority : Int)
    (location : String) : (insertUnit u us).filter (ScriptUnit.hasKey priority location) =
      (us ++ [u]).filter (ScriptUnit.hasKey priority location) := by
  induction us with
  | nil => rfl
  | cons v us ih =>
    obtain ⟨hv, hus⟩ := List.pairwise_cons.mp h
    unfold insertUnit
    split
    · next hlt =>
      have hvus : ∀ x ∈ v :: us, v.file.Before x.file :=
        List.forall_mem_cons.mpr ⟨.inr ⟨rfl, Std.le_refl _⟩, hv⟩
      cases hkey : u.hasKey priority location with
      | false => simp [List.filter_cons, hkey]
      | true =>
        -- what comes behind the unit is greater, so there is nothing with the same key
        have hnone : (v :: us).filter (ScriptUnit.hasKey priority location) = [] := by
          refine List.filter_eq_nil_iff.mpr fun x hx hxkey => ?_
          have hux : u.order x = .lt :=
            Std.TransCmp.lt_of_lt_of_isLE hlt (ScriptFile.isLE_order_iff.mpr (hvus x hx))
          rw [ScriptUnit.order_eq_of_hasKey hkey hxkey] at hux
          cases hux
        rw [List.filter_append, List.filter_cons_of_pos hkey, hnone, List.nil_append,
          List.filter_cons_of_pos hkey, List.filter_nil]
    · rw [List.cons_append, List.filter_cons, List.filter_cons, ih hus]

/-! ## Several units -/

namespace ScriptPack

def pushAll (k : ScriptPack κ) (us : List ScriptUnit) : ScriptPack κ := us.foldl push k

variable {k : ScriptPack κ}

theorem pushAll_eq (k : ScriptPack κ) (us : List ScriptUnit) :
    k.pushAll us = { k with units := (k.pushAll us).units } := by
  induction us generalizing k with
  | nil => rfl
  | cons u us ih => exact ih (k.push u)

theorem perm_units_pushAll (k : ScriptPack κ) (us : List ScriptUnit) :
    (k.pushAll us).units.Perm (k.units ++ us) := by
  induction us generalizing k with
  | nil => rw [List.append_nil]; exact .refl _
  | cons u us ih =>
    have hpush : (k.push u).units.Perm (u :: k.units) := perm_insertUnit _ _
    exact (ih (k.push u)).trans ((hpush.append_right _).trans List.perm_middle.symm)

theorem inOrder_pushAll (h : InOrder k.units) (us : List ScriptUnit) :
    InOrder (k.pushAll us).units := by
  induction us generalizing k with
  | nil => exact h
  | cons u us ih => exact ih (k := k.push u) (h.insertUnit u)

/-- Units with the same priority and the same location are in the order in which they came. -/
theorem filter_units_pushAll (h : InOrder k.units) (us : List ScriptUnit) (priority : Int)
    (location : String) : (k.pushAll us).units.filter (ScriptUnit.hasKey priority location) =
      (k.units ++ us).filter (ScriptUnit.hasKey priority location) := by
  induction us generalizing k with
  | nil => rw [List.append_nil]; rfl
  | cons u us ih =>
    have hrest := ih (k := k.push u) (h.insertUnit u)
    have hpush := filter_insertUnit h u priority location
    rw [List.append_cons, List.filter_append, ← hpush, ← List.filter_append]
    exact hrest

/-- **The order in which units come does not show**, if their locations are different. -/
theorem units_pushAll_comm (h : InOrder k.units) {us us' : List ScriptUnit} (perm : us'.Perm us)
    (distinct : ((k.units ++ us).map ScriptUnit.location).Nodup) :
    (k.pushAll us').units = (k.pushAll us).units := by
  have hperm : (k.pushAll us').units.Perm (k.pushAll us).units :=
    (k.perm_units_pushAll us').trans ((perm.append_left _).trans (k.perm_units_pushAll us).symm)
  refine hperm.eq_of_pairwise (fun u v hu hv huv hvu => ?_) (inOrder_pushAll h us')
    (inOrder_pushAll h us)
  have heq : u.order v = .eq := Std.OrientedCmp.isLE_antisymm (ScriptFile.isLE_order_iff.mpr huv)
    (ScriptFile.isLE_order_iff.mpr hvu)
  have hmem : ∀ {x}, x ∈ (k.pushAll us).units → x ∈ k.units ++ us :=
    (k.perm_units_pushAll us).mem_iff.mp
  exact List.inj_on_of_nodup_map distinct (hmem (hperm.mem_iff.mp hu)) (hmem hv)
    (ScriptFile.order_eq_eq_iff.mp heq).2

/-- Where locations are different, a location finds its unit. -/
theorem unit?_eq_some_iff (distinct : (k.units.map ScriptUnit.location).Nodup) {location : String}
    {u : ScriptUnit} : k.unit? location = some u ↔ u ∈ k.units ∧ u.location = location := by
  constructor
  · intro h
    exact ⟨List.mem_of_find?_eq_some h, by simpa using List.find?_some h⟩
  · rintro ⟨hu, rfl⟩
    obtain ⟨v, hv⟩ : ∃ v, k.unit? u.location = some v :=
      Option.isSome_iff_exists.mp (List.find?_isSome.mpr ⟨u, hu, by simp⟩)
    have hsame : v.location = u.location := by simpa using List.find?_some hv
    rw [hv, List.inj_on_of_nodup_map distinct (List.mem_of_find?_eq_some hv) hu hsame]

end ScriptPack

end PackHost.Pack
