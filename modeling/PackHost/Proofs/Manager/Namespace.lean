import PackHost.Proofs.Manager.Opening
import PackHost.Proofs.World.Writings

/-!
# The namespace of a load

A load writes its namespace from nothing: first the registrars write, then what every namespace
offers. Under every name the last binding counts, or else the last constant. The main statement is
`namespace_of_load`.
-/

namespace PackHost

open Pack

variable {ω γ κ : Type}

namespace Manager

theorem registry_of_load {m m' : Manager ω γ κ} {r : Runner ω γ} {w w' : World ω γ}
    (h : m.load r w = some (m', w')) :
    m'.registry = ((w.dropOwned m.desk).collect m.desk m.plan.kind).1 := by
  obtain ⟨packs, p, -, rfl, -⟩ := load_eq_some h
  rfl

/-- Forgetting handlers changes nothing about what is written. -/
theorem writings_dropOwned (w : World ω γ) (d e : Nat) (kind : ScriptKind) :
    (w.dropOwned d).writings e kind = w.writings e kind := by
  rw [World.writings, World.writings, World.standardFunctions_eq, World.standardFunctions_eq]
  rfl

/-- **The last writing counts, and bindings hide constants.** Whatever the registrars write, each
one looking at what was written before it if it likes, the namespace of a load has under every name
the last binding, which scripts may replace, or else the last constant, which they cannot assign to,
or else nothing. The constants and functions of every namespace count as written last, and earlier
loads do not count. So the functions of the desk are always there, a binding of a registrar under
another name counts even if every namespace has a constant of this name, and this is the namespace
with which the packs of the load begin. -/
theorem namespace_of_load {m m' : Manager ω γ κ} {r : Runner ω γ} {w w' : World ω γ}
    (h : m.load r w = some (m', w')) :
    let written := w.registrarWritings m.plan.kind
    let installed := m'.registry.merged
    (∀ name, installed.get? name = Writing.standing? name
      (written ++ standardConstants m.plan.kind ++ w.standardFunctions m.desk)) ∧
    (∀ role : DeskRole,
      installed.get? role.name = some ⟨.function (w.roleHandle role), false⟩ ∧
      ((w.dropOwned m.desk).collect m.desk m.plan.kind).2.functions[(w.roleHandle role).id]? =
        some (.desk m.desk role)) ∧
    (∀ name v, Writing.lastBinding? name written = some v → (∀ role : DeskRole, role.name ≠ name) →
      installed.get? name = some ⟨v, false⟩) ∧
    ∃ deeds, m.chronicle r w = some deeds ∧ Deed.replay deeds w = w' ∧
      Deed.Opens (fun pack c =>
        m.plan.engine.create ⟨pack, installed, m.plan.restriction⟩ = .ok c) deeds := by
  intro written installed
  have hlaw : ∀ name, installed.get? name =
      Writing.standing? name (w.writings m.desk m.plan.kind) := by
    intro name
    show m'.registry.merged.get? name = _
    rw [registry_of_load h, World.get?_merged_collect, writings_dropOwned]
  refine ⟨hlaw, fun role => ⟨?_, ?_⟩, fun name v hv hrole => ?_, (openings_of_load h).1⟩
  · rw [hlaw, World.standing?_role]
  · exact (w.dropOwned m.desk).functions_collect m.desk m.plan.kind role
  · rw [hlaw, World.standing?_of_binding hv hrole]

namespace Sample

/-- A registrar that writes several times under one name, and under names of every namespace. -/
def early : Registrar := .ofSteps none
  [.write (.binding "depth" (.int 1)), .write (.constant "depth" (.int 2)),
    .write (.function ⟨"log", none, 0⟩), .write (.binding "SECOND" (.text "short")),
    .write (.constant "MINUTE" (.text "long")), .seen "before"]

def late : Registrar := .ofSteps none
  [.seen "depth", .write (.constant "depth" (.int 4)), .write (.constant "rate" (.int 5)),
    .write (.constant "rate" (.int 6))]

def contested : World Script.Heap Script.Callback :=
  { (World.fresh Script.Heap.empty).addDesk .kept with registrars := [early, late] }

end Sample

/-- Two registrars write under the same names, and one of them under names of every namespace. -/
theorem namespace_of_load_sample :
    ∃ m' w', Sample.stocked.load Script.bareRunner Sample.contested = some (m', w') ∧
      m'.registry.merged.get? "depth" = some ⟨.int 6, false⟩ ∧
      m'.registry.merged.get? "rate" = some ⟨.int 6, true⟩ ∧
      m'.registry.merged.get? "SECOND" = some ⟨.text "short", false⟩ ∧
      m'.registry.merged.get? "MINUTE" = some ⟨.int minute, true⟩ ∧
      m'.registry.merged.get? "log" = some ⟨.function ⟨"log", some 1, 0⟩, false⟩ ∧
      m'.registry.merged.get? "spawn" = none := by
  have hloads : (Sample.stocked.load Script.bareRunner Sample.contested).isSome = true := by
    decide +kernel
  obtain ⟨⟨m', w'⟩, hload⟩ := Option.isSome_iff_exists.mp hloads
  obtain ⟨hlaw, hroles, hbound, -⟩ := namespace_of_load hload
  refine ⟨m', w', hload, ?_, ?_, ?_, ?_, (hroles .log).1, ?_⟩
  · exact (hlaw "depth").trans (by rfl)
  · exact (hlaw "rate").trans (by rfl)
  · exact hbound "SECOND" _ (by rfl) (by intro role; cases role <;> decide)
  · exact (hlaw "MINUTE").trans (by rfl)
  · exact (hlaw "spawn").trans (by rfl)

end Manager

end PackHost
