import PackHost.Proofs.Language.Decoding
import PackHost.Proofs.Table

/-!
# Fresh contexts

A fresh context shows the namespace that it is made of, except for the names that are kept from
scripts (`Context.shows_ofSpec`). A namespace is what is merged of a registry, and its names are in
order whatever was written (`Registry.Ordered.merged`).
-/

namespace PackHost

/-! ## Names that are kept from scripts -/

namespace Restriction

theorem contains_iff {r : Restriction} {name : String} :
    r.contains name = true ↔ name ∈ r.names := by
  rw [contains, List.contains_iff_mem]

theorem contains_extend {r : Restriction} {names : List String} {name : String} :
    (r.extend names).contains name = true ↔ r.contains name = true ∨ name ∈ names := by
  rw [contains_iff, contains_iff, extend, ofList, mem_sortedNames, List.mem_append]

end Restriction

/-! ## Namespaces -/

namespace Registry

structure Ordered (r : Registry) : Prop where
  bindings : r.bindings.Sorted
  constants : r.constants.Sorted

theorem ordered_empty : Registry.empty.Ordered := ⟨Table.sorted_nil, Table.sorted_nil⟩

theorem Ordered.write {r : Registry} (h : r.Ordered) (x : Writing) : (r.write x).Ordered := by
  cases x with
  | binding name value => exact ⟨h.bindings.insert name value, h.constants⟩
  | constant name value => exact ⟨h.bindings, h.constants.insert name value⟩

theorem Ordered.foldl_write {r : Registry} (h : r.Ordered) (xs : List Writing) :
    (xs.foldl Registry.write r).Ordered := by
  induction xs generalizing r with
  | nil => exact h
  | cons x xs ih => exact ih (h.write x)

theorem Ordered.run {r : Registry} (h : r.Ordered) (g : Registration) : (g.run r).Ordered := by
  induction g generalizing r with
  | done => exact h
  | look next ih => exact ih r h
  | write w next ih => exact ih (h.write w)

theorem Ordered.collect {r : Registry} (h : r.Ordered) (kind : ScriptKind) (gs : List Registrar) :
    (Registrar.collect kind gs r).1.Ordered := by
  induction gs generalizing r with
  | nil => exact h
  | cons g gs ih => exact ih (h.run _)

theorem Ordered.merged {r : Registry} (h : r.Ordered) : r.merged.Sorted := by
  have hconstants : Table.Sorted (r.constants.mapValues fun v => (⟨v, true⟩ : Global)) :=
    h.constants.mapValues _
  exact hconstants.foldl_insert r.bindings Prod.fst fun e => ⟨e.2, false⟩

end Registry

namespace Language

variable {L : Language}

theorem exists_routine?_iff {t : L.Tree} {name : String} :
    ((L.functions t).any fun r => L.routineName r == name) = true ↔
      ∃ count, (L.routine? t name count).isSome = true := by
  simp only [routine?, List.any_eq_true, List.find?_isSome, Bool.and_eq_true, beq_iff_eq]
  constructor
  · rintro ⟨r, hr, hname⟩
    exact ⟨_, r, hr, hname, rfl⟩
  · rintro ⟨_, r, hr, hname, -⟩
    exact ⟨r, hr, hname⟩

theorem routine?_empty (L : Language) (name : String) (count : Nat) :
    L.routine? L.empty name count = none := by
  rw [routine?, L.functions_empty]
  rfl

namespace Context

/-! ## What contexts show -/

theorem mem_names_iff (hs : L.Scoped) {c : Context L} {name : String} :
    name ∈ c.names ↔ c.has name = true := by
  rw [names, mem_sortedNames, List.mem_append, List.mem_append, has, Bool.or_eq_true,
    Bool.or_eq_true, Table.mem_names_iff, hs.mem_variableNames, hs.contains_eq]
  simp

variable {ω γ : Type}

/-- The context shows a namespace without the names that are kept from scripts, and nothing else. -/
structure Shows (p : Port L ω γ) (c : Context L) (globals : Table Global)
    (restriction : Restriction) : Prop where
  has : ∀ name, c.has name = true ↔
    globals.contains name = true ∧ restriction.contains name = false
  global : ∀ name, c.global p name =
    .done (if restriction.contains name then none else (globals.get? name).map Global.value)
  names : ∀ name, name ∈ c.names ↔
    globals.contains name = true ∧ restriction.contains name = false
  ascending : c.names.Pairwise (· < ·)

structure Hides (p : Port L ω γ) (c : Context L) (name : String) : Prop where
  has : c.has name = false
  global : c.global p name = .done none
  names : name ∉ c.names

/-! ## Namespaces as they are installed -/

variable {globals : Table Global}

/-- What a name stands for after a namespace was installed. -/
inductive Stands (globals : Table Global) (name : String) (s r : Table Function × L.Scope) : Prop
  | absent : globals.get? name = none → r.1.get? name = s.1.get? name →
      L.find? r.2 name = L.find? s.2 name → Stands globals name s r
  | function {f : Function} {constant : Bool} : globals.get? name = some ⟨.function f, constant⟩ →
      r.1.get? name = some f → L.find? r.2 name = L.find? s.2 name → Stands globals name s r
  | variable_ {g : Global} : globals.get? name = some g → r.1.get? name = s.1.get? name →
      L.find? r.2 name = some (.own (L.encode g.value)) → Stands globals name s r

theorem get?_install_of_ne (s : Table Function × L.Scope) {e : String × Global} {name : String}
    (h : name ≠ e.1) : (install L s e).1.get? name = s.1.get? name := by
  unfold install
  split
  · exact Table.get?_insert_of_ne h _ _
  · rfl

theorem find?_install_of_ne (hs : L.Scoped) (s : Table Function × L.Scope) {e : String × Global}
    {name : String} (h : name ≠ e.1) : L.find? (install L s e).2 name = L.find? s.2 name := by
  unfold install
  split
  · rfl
  · rw [hs.find?_push, if_neg h]

theorem stands_install (hs : L.Scoped) (s : Table Function × L.Scope) (name : String) (g : Global) :
    Stands [(name, g)] name s (install L s (name, g)) := by
  obtain ⟨value, constant⟩ := g
  have hget : Table.get? name [(name, (⟨value, constant⟩ : Global))] = some ⟨value, constant⟩ := by
    rw [Table.get?, if_pos rfl]
  have hpush : ∀ d, L.find? (L.push name constant d s.2) name = some (.own d) := by
    intro d
    rw [hs.find?_push, if_pos rfl]
  cases value with
  | function f => exact .function hget (Table.get?_insert_self _ _ _) rfl
  | _ => exact .variable_ hget rfl (hpush _)

/-- **Names stand for what the namespace has under them**, and otherwise for what they stood for. -/
theorem stands_foldl_install (hs : L.Scoped) {globals : Table Global} (sorted : globals.Sorted)
    (name : String) (s : Table Function × L.Scope) :
    Stands globals name s (globals.foldl (install L) s) := by
  induction globals generalizing s with
  | nil => exact .absent rfl rfl rfl
  | cons e globals ih =>
    obtain ⟨hfirst, hrest⟩ := List.pairwise_cons.mp sorted
    have hlater := ih hrest (install L s e)
    obtain ⟨k, g⟩ := e
    by_cases hname : k = name
    · subst hname
      have hnone : Table.get? k globals = none := Table.get?_eq_none fun e' he' heq =>
        String.lt_irrefl k (heq ▸ hfirst e' he')
      have hget : Table.get? k ((k, g) :: globals) = Table.get? k [(k, g)] := by
        rw [Table.get?, Table.get?, if_pos rfl, if_pos rfl]
      cases hlater with
      | function h => rw [hnone] at h; cases h
      | variable_ h => rw [hnone] at h; cases h
      | absent _ hfunction hfind =>
        cases stands_install hs s k g with
        | absent h => rw [Table.get?, if_pos rfl] at h; cases h
        | function h hf hv => exact .function (hget.trans h) (hfunction.trans hf) (hfind.trans hv)
        | variable_ h hf hv => exact .variable_ (hget.trans h) (hfunction.trans hf) (hfind.trans hv)
    · have hget : Table.get? name ((k, g) :: globals) = Table.get? name globals := by
        rw [Table.get?, if_neg hname]
      have hfunction := get?_install_of_ne s (e := (k, g)) (Ne.symm hname)
      have hfind := find?_install_of_ne hs s (e := (k, g)) (Ne.symm hname)
      cases hlater with
      | absent h hf hv => exact .absent (hget.trans h) (hf.trans hfunction) (hv.trans hfind)
      | function h hf hv => exact .function (hget.trans h) hf (hv.trans hfind)
      | variable_ h hf hv => exact .variable_ (hget.trans h) (hf.trans hfunction) hv

/-! ## Fresh contexts -/

def allowed (spec : ContextSpec) : Table Global :=
  spec.globals.filter fun e => !spec.restriction.contains e.1

theorem get?_allowed (spec : ContextSpec) (name : String) : Table.get? name (allowed spec) =
    if spec.restriction.contains name then none else spec.globals.get? name := by
  rw [allowed, Table.get?_filter_names spec.globals name fun name =>
    !spec.restriction.contains name]
  cases spec.restriction.contains name <;> rfl

variable (limits : Limits) {spec : ContextSpec}

theorem stands_ofSpec (hs : L.Scoped) (sorted : spec.globals.Sorted) (name : String) :
    Stands (allowed spec) name (([] : Table Function), L.noVariables)
      ((ofSpec L limits spec).kit.functions, (ofSpec L limits spec).scope) :=
  stands_foldl_install hs (sorted.filter _) name _

theorem any_functions_empty (L : Language) (name : String) :
    ((L.functions L.empty).any fun r => L.routineName r == name) = false := by
  rw [L.functions_empty]
  rfl

/-- **A fresh context shows its namespace without the names that are kept from scripts.** -/
theorem shows_ofSpec (hl : L.Lossless) (hs : L.Scoped) (p : Port L ω γ)
    (sorted : spec.globals.Sorted) :
    (ofSpec L limits spec).Shows p spec.globals spec.restriction := by
  have hshared : (ofSpec L limits spec).shared = L.empty := rfl
  have hhas : ∀ name, (ofSpec L limits spec).has name = (Table.get? name (allowed spec)).isSome := by
    intro name
    rw [has, hs.contains_eq, Table.contains, hshared, any_functions_empty L, Bool.or_false]
    cases stands_ofSpec limits hs sorted name with
    | absent h hf hv =>
      rw [h, hf, hv, hs.find?_noVariables]
      rfl
    | function h hf hv =>
      rw [h, hf, hv, hs.find?_noVariables]
      rfl
    | variable_ h hf hv =>
      rw [h, hv]
      rfl
  have hshown : ∀ name, (ofSpec L limits spec).has name = true ↔
      spec.globals.contains name = true ∧ spec.restriction.contains name = false := by
    intro name
    rw [hhas, get?_allowed, Table.contains]
    cases spec.restriction.contains name <;> simp
  have hvalue : ∀ name, (if spec.restriction.contains name then none
      else (spec.globals.get? name).map Global.value) =
        (Table.get? name (allowed spec)).map Global.value := by
    intro name
    rw [get?_allowed]
    split <;> rfl
  refine ⟨hshown, fun name => ?_, fun name => (mem_names_iff hs).trans (hshown name),
    ascending_sortedNames _⟩
  rw [hvalue, global]
  cases stands_ofSpec limits hs sorted name with
  | absent h hf hv =>
    rw [h, hf, hv, hs.find?_noVariables]
    rfl
  | function h hf hv =>
    rw [h, hf, hv, hs.find?_noVariables]
    rfl
  | variable_ h hf hv =>
    rw [h, hv]
    dsimp only
    rw [p.decode_encode _ hl]
    rfl

theorem ne_of_mem_allowed {name : String} (hname : spec.restriction.contains name = true)
    {e : String × Global} (he : e ∈ allowed spec) : name ≠ e.1 := by
  rintro rfl
  have hkept := (List.mem_filter.mp he).2
  simp [hname] at hkept

/-- What is kept from scripts is no function of the kit. -/
theorem get?_functions_ofSpec {name : String} (hname : spec.restriction.contains name = true) :
    Table.get? name (ofSpec L limits spec).kit.functions = none := by
  refine List.foldlRecOn (motive := fun s : Table Function × L.Scope => Table.get? name s.1 = none)
    (allowed spec) (install L) rfl fun s hs e he => ?_
  rw [get?_install_of_ne s (ne_of_mem_allowed hname he), hs]

theorem find?_scope_ofSpec (hs : L.Scoped) {name : String}
    (hname : spec.restriction.contains name = true) :
    L.find? (ofSpec L limits spec).scope name = none := by
  refine List.foldlRecOn (motive := fun s : Table Function × L.Scope => L.find? s.2 name = none)
    (allowed spec) (install L) (hs.find?_noVariables name) fun s hfind e he => ?_
  rw [find?_install_of_ne hs s (ne_of_mem_allowed hname he), hfind]

/-- What is kept from scripts is not shown, whatever the namespace is. -/
theorem hides_ofSpec (hs : L.Scoped) (p : Port L ω γ) {name : String}
    (hname : spec.restriction.contains name = true) : (ofSpec L limits spec).Hides p name := by
  have hfind := find?_scope_ofSpec limits hs hname
  have hfunctions : Table.get? name (ofSpec L limits spec).kit.functions = none :=
    get?_functions_ofSpec limits hname
  have hshared : (ofSpec L limits spec).shared = L.empty := rfl
  have hhas : (ofSpec L limits spec).has name = false := by
    rw [has, hs.contains_eq, hfind, Table.contains, hfunctions, hshared, any_functions_empty L]
    rfl
  refine ⟨hhas, ?_, fun h => ?_⟩
  · rw [global, hfind, hfunctions]
    rfl
  · rw [mem_names_iff hs, hhas] at h
    cases h

end Context

end Language

end PackHost
