import PackHost.Event.Bus
import PackHost.Proofs.Table

/-!
# What is registered on a bus

How the registrations of every name change, and that the numbers of a name ascend on every bus that
can be reached from an empty one: its handlers are in the order of registration.
-/

namespace PackHost.Event.Bus

variable {η : Type}

inductive Reachable : Bus η → Prop
  | empty : Reachable .empty
  | listen {b : Bus η} (h : Reachable b) (event : String) (handler : η) :
      Reachable (b.listen event handler)
  | remove {b : Bus η} (h : Reachable b) (ids : List Nat) : Reachable (b.remove ids)
  | clear {b : Bus η} (h : Reachable b) : Reachable b.clear

theorem registered_listen (b : Bus η) (event : String) (handler : η) (e : String) :
    (b.listen event handler).registered e =
      if event = e then b.registered e ++ [(b.next, handler)] else b.registered e := by
  unfold listen registered
  by_cases he : event = e
  · subst he
    simp [Table.get?_insert_self]
  · rw [Table.get?_insert_of_ne (Ne.symm he), if_neg he]

theorem registered_remove {b : Bus η} (h : b.table.Sorted) (ids : List Nat) (e : String) :
    (b.remove ids).registered e = (b.registered e).filter fun g => !ids.contains g.1 := by
  have hget : (b.remove ids).table.get? e =
      ((b.table.get? e).map (·.filter fun g => !ids.contains g.1)).filter (!·.isEmpty) := by
    rw [← Table.get?_mapValues]
    exact Table.get?_filter (h.mapValues _) e fun l : List (Nat × η) => !l.isEmpty
  unfold registered
  rw [hget]
  cases b.table.get? e with
  | none => rfl
  | some l =>
    simp only [Option.map_some, Option.filter, Option.getD_some]
    cases l.filter fun g => !ids.contains g.1 <;> rfl

/-! ## Reachable buses -/

/-- The names are in order, and so are the numbers of every name, all of which were given. -/
structure Sound (b : Bus η) : Prop where
  sorted : b.table.Sorted
  ascending : ∀ event, ((b.registered event).map Prod.fst).Pairwise (· < ·)
  given : ∀ event, ∀ g ∈ b.registered event, g.1 < b.next

namespace Sound

theorem empty : Sound (empty : Bus η) where
  sorted := Table.sorted_nil
  ascending _ := List.Pairwise.nil
  given _ g hg := by cases hg

variable {b : Bus η}

theorem clear (_ : Sound b) : Sound b.clear where
  sorted := Table.sorted_nil
  ascending _ := List.Pairwise.nil
  given _ g hg := by cases hg

theorem listen (h : Sound b) (event : String) (handler : η) : Sound (b.listen event handler) where
  sorted := h.sorted.insert _ _
  ascending e := by
    rw [registered_listen]
    split
    · rw [List.map_append, List.pairwise_append]
      refine ⟨h.ascending e, List.pairwise_singleton _ _, fun i hi j hj => ?_⟩
      obtain ⟨g, hg, rfl⟩ := List.mem_map.mp hi
      rw [List.mem_singleton.mp hj]
      exact h.given e g hg
    · exact h.ascending e
  given e g hg := by
    have hnext : (b.listen event handler).next = b.next + 1 := rfl
    rw [registered_listen] at hg
    rw [hnext]
    split at hg
    · rcases List.mem_append.mp hg with hg | hg
      · exact Nat.lt_succ_of_lt (h.given e g hg)
      · rw [List.mem_singleton.mp hg]
        exact Nat.lt_succ_self _
    · exact Nat.lt_succ_of_lt (h.given e g hg)

theorem remove (h : Sound b) (ids : List Nat) : Sound (b.remove ids) where
  sorted := (h.sorted.mapValues _).filter _
  ascending e := by
    rw [registered_remove h.sorted]
    exact (h.ascending e).sublist (List.filter_sublist.map _)
  given e g hg := by
    rw [registered_remove h.sorted] at hg
    exact h.given e g (List.mem_filter.mp hg).1

end Sound

theorem Reachable.sound {b : Bus η} (h : b.Reachable) : b.Sound := by
  induction h with
  | empty => exact .empty
  | listen _ event handler ih => exact ih.listen event handler
  | remove _ ids ih => exact ih.remove ids
  | clear _ ih => exact ih.clear

end PackHost.Event.Bus
