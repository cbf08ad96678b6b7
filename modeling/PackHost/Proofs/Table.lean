import Mathlib.Tactic.Tauto
import PackHost.Table

/-!
# Tables in order

A table is `Sorted` when its names ascend strictly, so that each name occurs once. What a name has
after all values were changed and some entries were left out depends on its own value only.
-/

namespace PackHost.Table

variable {α β : Type}

def Sorted (t : Table α) : Prop := t.Pairwise fun a b => a.1 < b.1

theorem sorted_nil : Sorted ([] : Table α) := List.Pairwise.nil

theorem mem_insert {name : String} {a : α} {t : Table α} {e : String × α}
    (h : e ∈ insert name a t) : e = (name, a) ∨ e ∈ t := by
  induction t with
  | nil => exact .inl (List.mem_singleton.mp h)
  | cons p t ih =>
    obtain ⟨k, b⟩ := p
    by_cases hk : name = k
    · simp only [insert, hk, ↓reduceIte, List.mem_cons] at h
      rcases h with rfl | h
      · exact .inl (by rw [hk])
      · exact .inr (List.mem_cons_of_mem _ h)
    · by_cases hlt : name < k
      · simp only [insert, hk, hlt, ↓reduceIte] at h
        exact List.mem_cons.mp h
      · simp only [insert, hk, hlt, ↓reduceIte, List.mem_cons] at h
        rcases h with rfl | h
        · exact .inr List.mem_cons_self
        · rcases ih h with h | h
          · exact .inl h
          · exact .inr (List.mem_cons_of_mem _ h)

theorem Sorted.insert {t : Table α} (h : t.Sorted) (name : String) (a : α) :
    Sorted (t.insert name a) := by
  induction t with
  | nil => exact List.pairwise_singleton _ _
  | cons p t ih =>
    obtain ⟨k, b⟩ := p
    obtain ⟨hfirst, ht⟩ := List.pairwise_cons.mp h
    by_cases hk : name = k
    · subst hk
      simp only [Table.insert, ↓reduceIte]
      exact List.pairwise_cons.mpr ⟨hfirst, ht⟩
    · by_cases hlt : name < k
      · simp only [Table.insert, hk, hlt, ↓reduceIte]
        refine List.pairwise_cons.mpr ⟨fun e he => ?_, h⟩
        rcases List.mem_cons.mp he with rfl | he
        · exact hlt
        · exact String.lt_trans hlt (hfirst e he)
      · have hgt : k < name := Std.lt_of_le_of_ne (Std.not_lt.mp hlt) (Ne.symm hk)
        simp only [Table.insert, hk, hlt, ↓reduceIte]
        refine List.pairwise_cons.mpr ⟨fun e he => ?_, ih ht⟩
        rcases mem_insert he with rfl | he
        · exact hgt
        · exact hfirst e he

theorem Sorted.mapValues {t : Table α} (h : t.Sorted) (f : α → β) : Sorted (t.mapValues f) :=
  List.pairwise_map.mpr h

theorem Sorted.filter {t : Table α} (h : t.Sorted) (keep : String × α → Bool) :
    Sorted (List.filter keep t) :=
  List.Pairwise.filter keep h

theorem get?_mapValues (name : String) (f : α → β) (t : Table α) :
    get? name (t.mapValues f) = (get? name t).map f := by
  induction t with
  | nil => rfl
  | cons p t ih =>
    obtain ⟨k, a⟩ := p
    by_cases hk : k = name
    · simp [mapValues, get?, hk]
    · simpa [mapValues, get?, hk] using ih

theorem get?_eq_none {name : String} {t : Table α} (h : ∀ e ∈ t, e.1 ≠ name) :
    get? name t = none := by
  induction t with
  | nil => rfl
  | cons p t ih =>
    rw [get?, if_neg (h p List.mem_cons_self)]
    exact ih fun e he => h e (List.mem_cons_of_mem _ he)

theorem mem_of_get?_eq_some {name : String} {t : Table α} {a : α} (h : get? name t = some a) :
    (name, a) ∈ t := by
  induction t with
  | nil => cases h
  | cons p t ih =>
    obtain ⟨k, b⟩ := p
    rw [get?] at h
    split at h
    · next hk =>
      cases h
      rw [hk]
      exact List.mem_cons_self
    · exact List.mem_cons_of_mem _ (ih h)

/-- Since no name occurs twice, what stands in the table is what is found under its name. -/
theorem Sorted.mem_iff {t : Table α} (h : t.Sorted) {name : String} {a : α} :
    (name, a) ∈ t ↔ get? name t = some a := by
  induction t with
  | nil => simp [get?]
  | cons p t ih =>
    obtain ⟨k, b⟩ := p
    obtain ⟨hfirst, ht⟩ := List.pairwise_cons.mp h
    by_cases hk : k = name
    · subst hk
      have hrest : (k, a) ∉ t := fun ha => String.lt_irrefl k (hfirst _ ha)
      simp [get?, hrest, eq_comm]
    · have hne : name ≠ k := Ne.symm hk
      simp [get?, hk, hne, ih ht]

/-- Changing values or leaving them out is seen at their own names only, since no name occurs
twice. -/
theorem get?_filterMap {t : Table α} (h : t.Sorted) (name : String) (f : α → Option β) :
    get? name (t.filterMap fun e => (f e.2).map fun b => (e.1, b)) = (get? name t).bind f := by
  induction t with
  | nil => rfl
  | cons p t ih =>
    obtain ⟨k, a⟩ := p
    obtain ⟨hfirst, ht⟩ := List.pairwise_cons.mp h
    have hrest := ih ht
    by_cases hk : k = name
    · subst hk
      have hother : ∀ e ∈ t, e.1 ≠ k := by
        intro e he hek
        have hlt := hfirst e he
        rw [hek] at hlt
        exact String.lt_irrefl k hlt
      rw [get?_eq_none hother] at hrest
      cases hf : f a with
      | none => simpa [get?, hf] using hrest
      | some b => simp [get?, hf]
    · cases hf : f a with
      | none => simpa [get?, hk, hf] using hrest
      | some b => simpa [get?, hk, hf] using hrest

theorem get?_filter {t : Table α} (h : t.Sorted) (name : String) (keep : α → Bool) :
    get? name (t.filter fun e => keep e.2) = (get? name t).filter keep := by
  have hguard : (Option.guard fun e : String × α => keep e.2) =
      fun e => (Option.guard keep e.2).map fun a => (e.1, a) := by
    funext e
    cases hkeep : keep e.2 <;> simp [Option.guard, hkeep]
  rw [← List.filterMap_eq_filter, hguard, get?_filterMap h]
  cases get? name t with
  | none => rfl
  | some a => cases hkeep : keep a <;> simp [Option.guard, Option.filter, hkeep]

theorem get?_filter_names (t : Table α) (name : String) (keep : String → Bool) :
    get? name (t.filter fun e => keep e.1) = if keep name then get? name t else none := by
  induction t with
  | nil => simp [get?]
  | cons p t ih =>
    obtain ⟨k, a⟩ := p
    by_cases hk : k = name
    · subst hk
      cases hkeep : keep k with
      | true => simp [get?, hkeep]
      | false => simpa [get?, hkeep] using ih
    · cases hkeep : keep k with
      | true => simpa [get?, hk, hkeep] using ih
      | false => simpa [get?, hk, hkeep] using ih

/-! ## Names -/

theorem mem_names_iff {name : String} {t : Table α} : name ∈ t.names ↔ t.contains name = true := by
  induction t with
  | nil => simp [names, contains, get?]
  | cons p t ih =>
    obtain ⟨k, a⟩ := p
    by_cases hk : k = name
    · simp [names, contains, get?, hk]
    · have hne : name ≠ k := Ne.symm hk
      simpa [names, contains, get?, hk, hne] using ih

theorem Sorted.foldl_insert {δ : Type} {t : Table α} (h : t.Sorted) (l : List δ) (name : δ → String)
    (value : δ → α) : Sorted (l.foldl (fun t x => t.insert (name x) (value x)) t) := by
  induction l generalizing t with
  | nil => exact h
  | cons x l ih => exact ih (h.insert (name x) (value x))

/-- After the entries of a table in order were put into another one, they are found there, and under
other names what was there before. -/
theorem Sorted.get?_foldl_insert {t : Table α} (h : t.Sorted) (f : α → β) (u : Table β)
    (name : String) :
    get? name (t.foldl (fun u e => u.insert e.1 (f e.2)) u) =
      ((get? name t).map f).or (get? name u) := by
  induction t generalizing u with
  | nil => rfl
  | cons p t ih =>
    obtain ⟨k, a⟩ := p
    obtain ⟨hfirst, ht⟩ := List.pairwise_cons.mp h
    rw [List.foldl_cons, ih ht]
    by_cases hk : k = name
    · subst hk
      have hother : ∀ e ∈ t, e.1 ≠ k := fun e he hek => String.lt_irrefl k (hek ▸ hfirst e he)
      rw [get?_eq_none hother, get?_insert_self]
      simp [get?]
    · rw [get?_insert_of_ne (Ne.symm hk)]
      simp [get?, hk]

theorem mem_names_foldl_insert {name : String} (pairs : List (String × α)) (t : Table α) :
    name ∈ names (pairs.foldl (fun t p => t.insert p.1 p.2) t) ↔
      name ∈ names t ∨ name ∈ pairs.map Prod.fst := by
  induction pairs generalizing t with
  | nil => simp
  | cons p pairs ih =>
    have hinsert : name ∈ names (t.insert p.1 p.2) ↔ name = p.1 ∨ name ∈ names t := by
      rw [mem_names_iff, mem_names_iff, contains, contains]
      by_cases hname : name = p.1
      · rw [hname, get?_insert_self]
        simp
      · rw [get?_insert_of_ne hname]
        simp [hname]
    rw [List.foldl_cons, ih, hinsert, List.map_cons, List.mem_cons]
    tauto

end PackHost.Table

namespace PackHost

theorem mem_sortedNames {name : String} {names : List String} :
    name ∈ sortedNames names ↔ name ∈ names := by
  rw [sortedNames, Table.ofPairs, Table.mem_names_foldl_insert, List.map_map]
  simp [Table.names, Function.comp_def]

/-- The names ascend strictly, so none occurs twice. -/
theorem ascending_sortedNames (names : List String) : (sortedNames names).Pairwise (· < ·) :=
  List.pairwise_map.mpr (Table.sorted_nil.foldl_insert _ Prod.fst Prod.snd)

end PackHost
