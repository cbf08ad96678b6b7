import PackHost.Proofs.Twin.Link

/-!
# Namespaces side by side

Writing linked values under the same names keeps namespaces alike, and what is merged from them is
alike, too.
-/

namespace PackHost

namespace Table

variable {α β α' β' : Type} {R : α → β → Prop}

theorem Matches.insert {t : Table α} {t' : Table β} (h : t.Matches R t') (name : String) {a : α}
    {b : β} (hab : R a b) : Matches R (t.insert name a) (t'.insert name b) := by
  induction h with
  | nil => exact .cons ⟨rfl, hab⟩ .nil
  | @cons e e' t t' he ht ih =>
    obtain ⟨k, x⟩ := e
    obtain ⟨k', y⟩ := e'
    obtain ⟨rfl, hxy⟩ := he
    simp only [Table.insert]
    split
    · exact .cons ⟨rfl, hab⟩ ht
    · split
      · exact .cons ⟨rfl, hab⟩ (.cons ⟨rfl, hxy⟩ ht)
      · exact .cons ⟨rfl, hxy⟩ ih

theorem Matches.imp {S : α → β → Prop} (h : ∀ a b, R a b → S a b) {t : Table α} {t' : Table β}
    (ht : t.Matches R t') : t.Matches S t' :=
  List.Forall₂.imp (fun _ _ he => ⟨he.1, h _ _ he.2⟩) ht

theorem Matches.mapValues {S : α' → β' → Prop} {f : α → α'} {g : β → β'}
    (h : ∀ a b, R a b → S (f a) (g b)) {t : Table α} {t' : Table β} (ht : t.Matches R t') :
    Matches S (t.mapValues f) (t'.mapValues g) := by
  rw [Matches, Table.mapValues, Table.mapValues, List.forall₂_map_left_iff,
    List.forall₂_map_right_iff]
  exact List.Forall₂.imp (fun _ _ he => ⟨he.1, h _ _ he.2⟩) ht

/-- Tables that are filled from tables that match match. -/
theorem Matches.foldl_insert {S : α' → β' → Prop} {f : α → α'} {g : β → β'}
    (h : ∀ a b, R a b → S (f a) (g b)) {t : Table α} {t' : Table β} (ht : t.Matches R t')
    {u : Table α'} {u' : Table β'} (hu : u.Matches S u') :
    Matches S (t.foldl (fun u e => u.insert e.1 (f e.2)) u)
      (t'.foldl (fun u e => u.insert e.1 (g e.2)) u') := by
  induction ht generalizing u u' with
  | nil => exact hu
  | @cons e e' t t' he _ ih =>
    obtain ⟨k, x⟩ := e
    obtain ⟨k', y⟩ := e'
    obtain ⟨rfl, hxy⟩ := he
    exact ih (hu.insert k (h x y hxy))

theorem Matches.names_eq {t : Table α} {t' : Table β} (h : t.Matches R t') :
    t.map Prod.fst = t'.map Prod.fst := by
  induction h with
  | nil => rfl
  | cons he _ ih => rw [List.map_cons, List.map_cons, he.1, ih]

theorem Matches.filter_names {t : Table α} {t' : Table β} (h : t.Matches R t')
    (keep : String → Bool) :
    Matches R (t.filter fun e => keep e.1) (t'.filter fun e => keep e.1) := by
  refine List.rel_filter (fun e e' he => ?_) h
  show keep e.1 = true ↔ keep e'.1 = true
  rw [he.1]

/-- A name has related values on both sides, or none. -/
theorem Matches.get? {t : Table α} {t' : Table β} (h : t.Matches R t') (name : String) :
    Option.Rel R (t.get? name) (t'.get? name) := by
  induction h with
  | nil => exact .none
  | @cons e e' t t' he _ ih =>
    obtain ⟨k, x⟩ := e
    obtain ⟨k', y⟩ := e'
    obtain ⟨rfl, hxy⟩ := he
    simp only [Table.get?]
    split
    · exact .some hxy
    · exact ih

end Table

/-- Registries in which the same was written, apart from functions that are related. -/
structure Registry.Matches (R : Function → Function → Prop) (r r' : Registry) : Prop where
  bindings : r.bindings.Matches (Value.Matches R) r'.bindings
  constants : r.constants.Matches (Value.Matches R) r'.constants

namespace Registry.Matches

variable {R S : Function → Function → Prop} {r r' : Registry}

theorem imp (h : ∀ f g, R f g → S f g) (hr : r.Matches R r') : r.Matches S r' :=
  ⟨hr.bindings.imp fun _ _ => .imp h, hr.constants.imp fun _ _ => .imp h⟩

theorem writeFunction (h : r.Matches R r') {f g : Function} (hname : f.name = g.name)
    (hfg : R f g) : (r.write (.function f)).Matches R (r'.write (.function g)) := by
  refine ⟨?_, h.constants⟩
  show Table.Matches _ (r.bindings.insert f.name _) (r'.bindings.insert g.name _)
  rw [hname]
  exact h.bindings.insert g.name hfg

theorem writeConstant (h : r.Matches R r') (name : String) {v v' : Value} (hv : v.Matches R v') :
    (r.write (.constant name v)).Matches R (r'.write (.constant name v')) :=
  ⟨h.bindings, h.constants.insert name hv⟩

theorem merged (h : r.Matches R r') :
    Table.Matches (Global.Matches R) r.merged r'.merged := by
  have hconstants : Table.Matches (Global.Matches R) (r.constants.mapValues fun v => ⟨v, true⟩)
      (r'.constants.mapValues fun v => ⟨v, true⟩) :=
    h.constants.mapValues fun _ _ hv => ⟨rfl, hv⟩
  exact h.bindings.foldl_insert (f := fun v => (⟨v, false⟩ : Global)) (g := fun v => ⟨v, false⟩)
    (fun _ _ hv => ⟨rfl, hv⟩) hconstants

end Registry.Matches

end PackHost
