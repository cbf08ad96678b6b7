import PackHost.Proofs.Language.Fresh
import PackHost.World.Load

/-!
# What counts of all that was written

Everything that is written for a load is one list: the writings of the registrars, in their order,
and then those of every namespace (`World.writings`). Under a name the last binding of this list
counts, and where there is none, the last constant (`World.get?_merged_collect`).
-/

namespace PackHost

variable {ω γ : Type}

/-! ## The last writing under a name -/

namespace Writing

/-- The value, if this is a binding of the name. -/
def bindingOf? (name : String) : Writing → Option Value
  | .binding n v => if n = name then some v else none
  | .constant .. => none

/-- The value, if this is a constant of the name. -/
def constantOf? (name : String) : Writing → Option Value
  | .binding .. => none
  | .constant n v => if n = name then some v else none

def lastBinding? (name : String) (xs : List Writing) : Option Value :=
  (xs.filterMap (bindingOf? name)).getLast?

def lastConstant? (name : String) (xs : List Writing) : Option Value :=
  (xs.filterMap (constantOf? name)).getLast?

/-- What counts under the name: the last binding, which scripts may replace, or else the last
constant. -/
def standing? (name : String) (xs : List Writing) : Option Global :=
  match lastBinding? name xs with
  | some v => some ⟨v, false⟩
  | none => (lastConstant? name xs).map fun v => ⟨v, true⟩

theorem lastBinding?_append (name : String) (xs ys : List Writing) :
    lastBinding? name (xs ++ ys) = (lastBinding? name ys).or (lastBinding? name xs) := by
  rw [lastBinding?, List.filterMap_append, List.getLast?_append]
  rfl

theorem lastConstant?_append (name : String) (xs ys : List Writing) :
    lastConstant? name (xs ++ ys) = (lastConstant? name ys).or (lastConstant? name xs) := by
  rw [lastConstant?, List.filterMap_append, List.getLast?_append]
  rfl

theorem lastBinding?_singleton (name : String) (x : Writing) :
    lastBinding? name [x] = x.bindingOf? name := by
  cases h : x.bindingOf? name <;> simp [lastBinding?, h]

theorem lastConstant?_singleton (name : String) (x : Writing) :
    lastConstant? name [x] = x.constantOf? name := by
  cases h : x.constantOf? name <;> simp [lastConstant?, h]

end Writing

/-! ## Tables after writing -/

namespace Registry

theorem get?_bindings_write (r : Registry) (x : Writing) (name : String) :
    (r.write x).bindings.get? name = (x.bindingOf? name).or (r.bindings.get? name) := by
  cases x with
  | constant n v => rfl
  | binding n v =>
    by_cases hn : n = name
    · subst hn
      simp [write, Writing.bindingOf?, Table.get?_insert_self]
    · simp [write, Writing.bindingOf?, hn, Table.get?_insert_of_ne (Ne.symm hn)]

theorem get?_constants_write (r : Registry) (x : Writing) (name : String) :
    (r.write x).constants.get? name = (x.constantOf? name).or (r.constants.get? name) := by
  cases x with
  | binding n v => rfl
  | constant n v =>
    by_cases hn : n = name
    · subst hn
      simp [write, Writing.constantOf?, Table.get?_insert_self]
    · simp [write, Writing.constantOf?, hn, Table.get?_insert_of_ne (Ne.symm hn)]

/-- Of the bindings written under a name the last one counts. -/
theorem get?_bindings_foldl_write (xs : List Writing) (r : Registry) (name : String) :
    (xs.foldl write r).bindings.get? name =
      (Writing.lastBinding? name xs).or (r.bindings.get? name) := by
  induction xs generalizing r with
  | nil => rfl
  | cons x xs ih =>
    rw [List.foldl_cons, ih, get?_bindings_write, ← List.singleton_append,
      Writing.lastBinding?_append, Writing.lastBinding?_singleton, Option.or_assoc]

/-- Of the constants written under a name the last one counts. -/
theorem get?_constants_foldl_write (xs : List Writing) (r : Registry) (name : String) :
    (xs.foldl write r).constants.get? name =
      (Writing.lastConstant? name xs).or (r.constants.get? name) := by
  induction xs generalizing r with
  | nil => rfl
  | cons x xs ih =>
    rw [List.foldl_cons, ih, get?_constants_write, ← List.singleton_append,
      Writing.lastConstant?_append, Writing.lastConstant?_singleton, Option.or_assoc]

/-- A binding hides a constant of the same name, whichever was written later. -/
theorem get?_merged {r : Registry} (h : r.Ordered) (name : String) :
    r.merged.get? name = ((r.bindings.get? name).map fun v => (⟨v, false⟩ : Global)).or
      ((r.constants.get? name).map fun v => ⟨v, true⟩) := by
  rw [merged, h.bindings.get?_foldl_insert fun v => (⟨v, false⟩ : Global), Table.get?_mapValues]

/-- **What counts after writing** into an empty registry is the last binding, or else the last
constant. -/
theorem get?_merged_foldl_write (xs : List Writing) (name : String) :
    (xs.foldl write empty).merged.get? name = Writing.standing? name xs := by
  rw [get?_merged (ordered_empty.foldl_write xs), get?_bindings_foldl_write,
    get?_constants_foldl_write, Writing.standing?]
  have hnothing : (empty.bindings.get? name = none) ∧ (empty.constants.get? name = none) :=
    ⟨rfl, rfl⟩
  rw [hnothing.1, hnothing.2, Option.or_none, Option.or_none]
  cases Writing.lastBinding? name xs <;> rfl

end Registry

/-! ## What registrars write -/

def Registration.writings : Registration → Registry → List Writing
  | .done, _ => []
  | .look next, r => (next r).writings r
  | .write x next, r => x :: next.writings (r.write x)

theorem Registration.run_eq_foldl_write (g : Registration) (r : Registry) :
    g.run r = (g.writings r).foldl Registry.write r := by
  induction g generalizing r with
  | done => rfl
  | look next ih => exact ih r r
  | write x next ih => exact ih (r.write x)

/-- What registrars write, one after another; each one may look at what was written before. -/
def Registrar.writings (kind : ScriptKind) : List Registrar → Registry → List Writing
  | [], _ => []
  | g :: gs, r =>
    let xs := (g.body (g.runs + 1) kind).writings r
    xs ++ writings kind gs (xs.foldl Registry.write r)

theorem Registrar.collect_eq_foldl_write (kind : ScriptKind) (gs : List Registrar) (r : Registry) :
    (collect kind gs r).1 = (writings kind gs r).foldl Registry.write r := by
  induction gs generalizing r with
  | nil => rfl
  | cons g gs ih =>
    simp only [collect, writings, List.foldl_append]
    rw [ih, Registration.run_eq_foldl_write]

/-! ## What is written for a load -/

namespace World

def roleWritings (d : Nat) : List DeskRole → World ω γ → List Writing
  | [], _ => []
  | role :: roles, w =>
    .function (w.newHandle role.name (some role.arity)) ::
      roleWritings d roles (w.define (.desk d role))

def standardFunctions (w : World ω γ) (d : Nat) : List Writing :=
  w.roleWritings d [.log, .logError, .onEvent, .postEvent]

/-- What the registrars write for a load, beginning with nothing. -/
def registrarWritings (w : World ω γ) (kind : ScriptKind) : List Writing :=
  Registrar.writings kind w.registrars .empty

def writings (w : World ω γ) (d : Nat) (kind : ScriptKind) : List Writing :=
  w.registrarWritings kind ++ standardConstants kind ++ w.standardFunctions d

theorem bindRoles_eq_foldl_write (d : Nat) (roles : List DeskRole) (r : Registry)
    (w : World ω γ) :
    (bindRoles d roles (r, w)).1 = (w.roleWritings d roles).foldl Registry.write r := by
  induction roles generalizing r w with
  | nil => rfl
  | cons role roles ih => exact ih _ _

/-- What is written does not depend on what stands behind the registrars in the world. -/
theorem roleWritings_registrars (d : Nat) (roles : List DeskRole) (w : World ω γ)
    (gs : List Registrar) :
    roleWritings d roles { w with registrars := gs } = w.roleWritings d roles := by
  induction roles generalizing w with
  | nil => rfl
  | cons role roles ih => exact congrArg (List.cons _) (ih (w.define (.desk d role)))

theorem collect_eq_foldl_write (w : World ω γ) (d : Nat) (kind : ScriptKind) :
    (w.collect d kind).1 = (w.writings d kind).foldl Registry.write .empty := by
  rw [collect, bindRoles_eq_foldl_write, roleWritings_registrars,
    Registrar.collect_eq_foldl_write, writings, List.foldl_append, List.foldl_append]
  rfl

/-- **The last writing counts, and bindings hide constants**, whatever registrars write. -/
theorem get?_merged_collect (w : World ω γ) (d : Nat) (kind : ScriptKind) (name : String) :
    (w.collect d kind).1.merged.get? name = Writing.standing? name (w.writings d kind) := by
  rw [collect_eq_foldl_write, Registry.get?_merged_foldl_write]

/-! ## The functions of a desk -/

/-- The function that a desk offers for a role, in the world before the load. -/
def roleHandle (w : World ω γ) (role : DeskRole) : Function :=
  let place : Nat := match role with
    | .log => 0
    | .logError => 1
    | .onEvent => 2
    | .postEvent => 3
  ⟨role.name, some role.arity, w.functions.size + place⟩

theorem standardFunctions_eq (w : World ω γ) (d : Nat) :
    w.standardFunctions d = [.function (w.roleHandle .log), .function (w.roleHandle .logError),
      .function (w.roleHandle .onEvent), .function (w.roleHandle .postEvent)] := by
  simp [standardFunctions, roleWritings, newHandle, define, roleHandle]

theorem lastBinding?_standardFunctions (w : World ω γ) (d : Nat) (role : DeskRole) :
    Writing.lastBinding? role.name (w.standardFunctions d) =
      some (.function (w.roleHandle role)) := by
  rw [standardFunctions_eq]
  cases role <;>
    simp [Writing.lastBinding?, Writing.bindingOf?, Writing.function, roleHandle, DeskRole.name]

theorem lastBinding?_standardFunctions_eq_none (w : World ω γ) (d : Nat) {name : String}
    (h : ∀ role : DeskRole, role.name ≠ name) :
    Writing.lastBinding? name (w.standardFunctions d) = none := by
  rw [standardFunctions_eq]
  simp [Writing.lastBinding?, Writing.bindingOf?, Writing.function, roleHandle, h]

theorem lastBinding?_standardConstants (kind : ScriptKind) (name : String) :
    Writing.lastBinding? name (standardConstants kind) = none := rfl

/-- Behind the handle of a role stands the function of the desk. -/
theorem functions_collect (w : World ω γ) (d : Nat) (kind : ScriptKind) (role : DeskRole) :
    (w.collect d kind).2.functions[(w.roleHandle role).id]? = some (.desk d role) := by
  have hfunctions : (w.collect d kind).2.functions = w.functions ++
      #[.desk d .log, .desk d .logError, .desk d .onEvent, .desk d .postEvent] := by
    apply Array.ext'
    simp [collect, bindRoles, define]
  rw [hfunctions, Array.getElem?_append_right (by simp [roleHandle])]
  cases role <;> simp [roleHandle]

/-- **No registrar replaces a function of the desk.** -/
theorem standing?_role (w : World ω γ) (d : Nat) (kind : ScriptKind) (role : DeskRole) :
    Writing.standing? role.name (w.writings d kind) =
      some ⟨.function (w.roleHandle role), false⟩ := by
  rw [Writing.standing?, writings, Writing.lastBinding?_append, lastBinding?_standardFunctions]
  rfl

/-- **What the registrars bind counts** under every other name, also under that of a constant that
every namespace offers. -/
theorem standing?_of_binding {w : World ω γ} {kind : ScriptKind} {name : String} {v : Value}
    (h : Writing.lastBinding? name (w.registrarWritings kind) = some v)
    (hrole : ∀ role : DeskRole, role.name ≠ name) (d : Nat) :
    Writing.standing? name (w.writings d kind) = some ⟨v, false⟩ := by
  rw [Writing.standing?, writings, Writing.lastBinding?_append, Writing.lastBinding?_append,
    lastBinding?_standardFunctions_eq_none w d hrole, lastBinding?_standardConstants, h]
  rfl

end World

end PackHost
