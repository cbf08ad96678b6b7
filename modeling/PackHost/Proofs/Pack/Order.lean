import PackHost.Pack.Basic

/-!
# The order of units

Units are put into a pack one by one. `ScriptPack.Grown.inOrder`: whatever the order in which this
is done, the units run by descending priority, and by location where the priorities are the same.
-/

namespace PackHost.Pack

variable {κ : Type}

/-! ## Files -/

namespace ScriptFile

/-- The first file has the higher priority, or the same one and no later location. -/
def Before (a b : ScriptFile) : Prop :=
  b.priority < a.priority ∨ (a.priority = b.priority ∧ a.location ≤ b.location)

theorem Before.trans {a b c : ScriptFile} (h : a.Before b) (h' : b.Before c) : a.Before c := by
  rcases h with h | ⟨hp, hl⟩
  · rcases h' with h' | ⟨hp', -⟩
    · exact .inl (by omega)
    · exact .inl (by omega)
  · rcases h' with h' | ⟨hp', hl'⟩
    · exact .inl (by omega)
    · exact .inr ⟨hp.trans hp', Std.le_trans hl hl'⟩

theorem compare_location_eq_lt {a b : String} : compare a b = .lt ↔ a < b :=
  compareOfLessAndEq_eq_lt

theorem before_of_order_eq_lt {a b : ScriptFile} (h : a.order b = .lt) : a.Before b := by
  rcases Ordering.then_eq_lt.mp h with hp | ⟨hp, hl⟩
  · exact .inl (Int.compare_eq_lt.mp hp)
  · exact .inr ⟨(Int.compare_eq_eq.mp hp).symm, Std.le_of_lt (compare_location_eq_lt.mp hl)⟩

theorem before_of_order_ne_lt {a b : ScriptFile} (h : a.order b ≠ .lt) : b.Before a := by
  rcases Int.lt_trichotomy b.priority a.priority with hp | hp | hp
  · have hlt : a.order b = .lt := Ordering.then_eq_lt.mpr (.inl (Int.compare_eq_lt.mpr hp))
    exact absurd hlt h
  · refine .inr ⟨hp, Std.not_lt.mp fun hl => h ?_⟩
    exact Ordering.then_eq_lt.mpr
      (.inr ⟨Int.compare_eq_eq.mpr hp, compare_location_eq_lt.mpr hl⟩)
  · exact .inl hp

end ScriptFile

/-! ## Packs -/

theorem mem_insertUnit {u v : ScriptUnit} {us : List ScriptUnit} :
    v ∈ insertUnit u us ↔ v = u ∨ v ∈ us := by
  induction us with
  | nil => simp [insertUnit]
  | cons x us ih =>
    unfold insertUnit
    split
    · exact List.mem_cons
    · rw [List.mem_cons, ih, List.mem_cons]
      constructor
      · rintro (h | h | h)
        · exact .inr (.inl h)
        · exact .inl h
        · exact .inr (.inr h)
      · rintro (h | h | h)
        · exact .inr (.inl h)
        · exact .inl h
        · exact .inr (.inr h)

/-- A unit is put in once, and no other one is lost or doubled. -/
theorem perm_insertUnit (u : ScriptUnit) (us : List ScriptUnit) :
    (insertUnit u us).Perm (u :: us) := by
  induction us with
  | nil => exact .refl _
  | cons v us ih =>
    unfold insertUnit
    split
    · exact .refl _
    · exact (ih.cons v).trans (.swap u v us)

def InOrder (us : List ScriptUnit) : Prop := us.Pairwise fun u v => u.file.Before v.file

theorem InOrder.insertUnit {us : List ScriptUnit} (h : InOrder us) (u : ScriptUnit) :
    InOrder (insertUnit u us) := by
  induction us with
  | nil => exact List.pairwise_singleton _ _
  | cons v us ih =>
    obtain ⟨hv, hus⟩ := List.pairwise_cons.mp h
    unfold Pack.insertUnit
    split
    · next hlt =>
      have huv : u.file.Before v.file := ScriptFile.before_of_order_eq_lt hlt
      refine List.pairwise_cons.mpr ⟨fun x hx => ?_, h⟩
      rcases List.mem_cons.mp hx with rfl | hx
      · exact huv
      · exact huv.trans (hv x hx)
    · next hlt =>
      have hvu : v.file.Before u.file := ScriptFile.before_of_order_ne_lt hlt
      refine List.pairwise_cons.mpr ⟨fun x hx => ?_, ih hus⟩
      rcases mem_insertUnit.mp hx with rfl | hx
      · exact hvu
      · exact hv x hx

namespace ScriptPack

/-- The name of a pack and the files of its units, in order. -/
def roster (k : ScriptPack κ) : String × List ScriptFile := (k.name, k.units.map ScriptUnit.file)

/-- Packs into which units were put one by one, with passes in between that keep the files. -/
inductive Grown : ScriptPack κ → Prop
  | empty (name description : String) (root : Files.Path) : Grown (.empty name description root)
  | push {k : ScriptPack κ} (h : Grown k) (u : ScriptUnit) : Grown (k.push u)
  | pass {k k' : ScriptPack κ} (h : Grown k) (same : k'.roster = k.roster) : Grown k'

theorem grown_of_rosters {ks ks' : List (ScriptPack κ)} (h : ∀ k ∈ ks, k.Grown)
    (same : ks'.map roster = ks.map roster) : ∀ k ∈ ks', k.Grown := by
  intro k hk
  have hmem : k.roster ∈ ks.map roster := by
    rw [← same]
    exact List.mem_map_of_mem hk
  obtain ⟨k₀, hk₀, hroster⟩ := List.mem_map.mp hmem
  exact (h k₀ hk₀).pass hroster.symm

theorem Grown.inOrder {k : ScriptPack κ} (h : k.Grown) : InOrder k.units := by
  induction h with
  | empty name description root => exact List.Pairwise.nil
  | push _ u ih => exact ih.insertUnit u
  | @pass k k' _ same ih =>
    have hfiles : k'.units.map ScriptUnit.file = k.units.map ScriptUnit.file :=
      congrArg Prod.snd same
    have hbefore := List.pairwise_map.mpr ih
    rw [← hfiles] at hbefore
    exact List.pairwise_map.mp hbefore

end ScriptPack

end PackHost.Pack
