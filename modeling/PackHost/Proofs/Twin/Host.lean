import PackHost.Proofs.Manager.Tended
import PackHost.Proofs.Twin.View

/-!
# Hosts that always answer alike

`Scene.Hosted` says that the results of the functions and registrars of a host do not depend on what
happened before. With such a host, loads that begin with the same packs and the same handlers look
the same in the end (`Scene.loads_alike`).
-/

namespace PackHost

open Event Pack

variable {ω γ κ : Type}

/-! ## Hosts -/

/-- The link in which the given functions and registrations are their own partners. -/
def Link.hosts (H I : Nat → Prop) : Link :=
  .diagonal fun
    | .function => H
    | .realm => fun _ => False
    | .registration => I

theorem Link.hosts_mono {H I I' : Nat → Prop} (h : ∀ i, I i → I' i) : hosts H I ≤ hosts H I' := by
  rintro k a b ⟨rfl, ha⟩
  refine ⟨rfl, ?_⟩
  cases k with
  | function => exact ha
  | realm => exact ha
  | registration => exact h a ha

def Registry.Within (H : Nat → Prop) (x : Registry) : Prop :=
  x.Matches (Function.Linked (.hosts H fun _ => False)) x

theorem Registry.Within.hosts {H : Nat → Prop} {x : Registry} (h : x.Within H) (I : Nat → Prop) :
    x.Matches (Function.Linked (.hosts H I)) x :=
  Matches.imp (fun _ _ => .mono (Link.hosts_mono fun _ hi => hi.elim)) h

/-- The registrars write the same in every run, and no functions but the given ones, as long as
nothing else was written. -/
def Registrar.Steady (H : Nat → Prop) (kind : ScriptKind) (gs : List Registrar) : Prop :=
  ∀ g ∈ gs, ∀ (n n' : Nat) (x : Registry), x.Within H →
    (g.body n kind).run x = (g.body n' kind).run x ∧ ((g.body n kind).run x).Within H

/-- Steady registrars write the same, however often they have run. -/
theorem Registrar.Steady.collect_eq {H : Nat → Prop} {kind : ScriptKind} {gs gs' : List Registrar}
    (h : Steady H kind gs) (hbodies : gs'.map body = gs.map body) {x : Registry} (hx : x.Within H) :
    (collect kind gs' x).1 = (collect kind gs x).1 ∧ (collect kind gs x).1.Within H := by
  induction gs generalizing gs' x with
  | nil =>
    obtain rfl : gs' = [] := List.map_eq_nil_iff.mp hbodies
    exact ⟨rfl, hx⟩
  | cons g gs ih =>
    obtain ⟨g', gs', rfl, hbody, hbodies⟩ := List.map_eq_cons_iff.mp hbodies
    obtain ⟨hg, hsteady⟩ := List.forall_mem_cons.mp h
    obtain ⟨hsame, hwithin⟩ := hg (g.runs + 1) (g'.runs + 1) x hx
    have hrest := ih hsteady hbodies hwithin
    rw [hsame] at hrest
    simp only [collect, hbody, hsame]
    exact hrest

theorem Registrar.Steady.of_bodies {H : Nat → Prop} {kind : ScriptKind} {gs gs' : List Registrar}
    (h : Steady H kind gs) (hbodies : gs'.map body = gs.map body) : Steady H kind gs' := by
  intro g' hg'
  obtain ⟨g, hg, hbody⟩ := List.mem_map.mp (hbodies ▸ List.mem_map_of_mem hg')
  rw [← hbody]
  exact h g hg

/-- The host is the same in both worlds: the given functions, the registrars, however often they
have run, and the listeners. -/
structure SameHost (H : Nat → Prop) (w v : World ω γ) : Prop where
  functions : ∀ i, H i → v.functions[i]? = w.functions[i]?
  registrars : v.registrars.map Registrar.body = w.registrars.map Registrar.body
  listeners : v.lifecycle.handlers scriptsLoaded = w.lifecycle.handlers scriptsLoaded

namespace SameHost

variable {H : Nat → Prop} {w v u : World ω γ}

theorem symm (h : SameHost H w v) : SameHost H v w where
  functions i hi := (h.functions i hi).symm
  registrars := h.registrars.symm
  listeners := h.listeners.symm

theorem trans (h : SameHost H w v) (h' : SameHost H v u) : SameHost H w u where
  functions i hi := (h'.functions i hi).trans (h.functions i hi)
  registrars := h'.registrars.trans h.registrars
  listeners := h'.listeners.trans h.listeners

theorem of_sameCore {d : Nat} (h : World.SameCore d w v) : SameHost H w v where
  functions i _ := by rw [h.functions]
  registrars := h.registrars
  listeners := by rw [h.lifecycle]

theorem changeDesk (w : World ω γ) (d : Nat) (f : Desk → Desk) :
    SameHost H w (w.changeDesk d f) :=
  ⟨fun _ _ => rfl, rfl, rfl⟩

end SameHost

/-- Tame deeds change nothing that the host registered. -/
theorem Deed.sparesHost_of_tame {d : Nat} {ds : List (Deed ω γ κ)} (h : Step.Tame d ds) :
    ∀ c ∈ changes d ds, c.sparesHost = true := by
  intro c hc
  obtain ⟨b, hb, hchange⟩ := List.mem_filterMap.mp hc
  have htame : b.isTame d := h b hb
  unfold Deed.change? at hchange
  split at hchange
  · next e event l =>
    obtain ⟨rfl, hsame⟩ := Option.ite_none_right_eq_some.mp hchange
    cases hsame
    cases l with
    | host f => simp [isTame, Act.isTame, Listener.isScript] at htame
    | script f => rfl
  · obtain ⟨rfl, -⟩ := Option.ite_none_right_eq_some.mp hchange
    simp [isTame, Act.isTame] at htame
  · obtain ⟨rfl, -⟩ := Option.ite_none_right_eq_some.mp hchange
    simp [isTame, Act.isTame] at htame
  · obtain ⟨-, hsame⟩ := Option.ite_none_right_eq_some.mp hchange
    cases hsame
    rfl
  · obtain ⟨rfl, -⟩ := Option.ite_none_right_eq_some.mp hchange
    simp [isTame] at htame
  · cases hchange

namespace Scene

variable (S : Scene ω γ κ)

/-- What the functions of the host in `H` answer does not depend on what happened before, and the
listeners of the host are among them. -/
structure Hosted (H : Nat → Prop) (w : World ω γ) : Prop where
  codes : ∀ i, H i → ∃ c, w.functions[i]? = some c ∧ S.CodeLinked (.hosts H fun _ => False) c c
  listeners : ∀ f ∈ w.lifecycle.handlers scriptsLoaded, H f.id

variable {S} {H : Nat → Prop} {w v : World ω γ}

namespace Hosted

theorem of_sameHost (h : S.Hosted H w) (hsame : SameHost H w v) : S.Hosted H v where
  codes i hi := by
    rw [hsame.functions i hi]
    exact h.codes i hi
  listeners f hf := by
    rw [hsame.listeners] at hf
    exact h.listeners f hf

/-- The functions of the host do alike in both worlds. -/
theorem codes_hosts (h : S.Hosted H w) (hsame : ∀ i, H i → v.functions[i]? = w.functions[i]?)
    (I : Nat → Prop) (a b : Nat) (hab : (Link.hosts H I) .function a b) : ∃ c c',
      w.functions[a]? = some c ∧ v.functions[b]? = some c' ∧ S.CodeLinked (.hosts H I) c c' := by
  obtain ⟨rfl, ha⟩ := hab
  obtain ⟨c, hc, hcode⟩ := h.codes a ha
  exact ⟨c, c, hc, hsame a ha ▸ hc, hcode.mono (Link.hosts_mono fun _ hi => hi.elim)⟩

theorem listeners_hosts (h : S.Hosted H w) (I : Nat → Prop) :
    List.Forall₂ (Function.Linked (.hosts H I)) (w.lifecycle.handlers scriptsLoaded)
      (w.lifecycle.handlers scriptsLoaded) :=
  List.forall₂_same.mpr fun f hf => ⟨⟨rfl, rfl⟩, rfl, h.listeners f hf⟩

end Hosted

/-! ## Loads -/

/-- What is left of the registrations when a load begins. -/
theorem holds_dropOwned {kept : List (Entry Listener)} (hw : S.desk < w.desks.size)
    (h : (w.desk S.desk).roll.Spares kept) : S.Holds (w.dropOwned S.desk) kept := by
  obtain ⟨log, hlog, rfl⟩ := h
  refine ⟨log.remove (w.desk S.desk).owned, ?_, rfl⟩
  rw [World.dropOwned, World.desk_changeDesk, if_pos ⟨rfl, hw⟩]
  exact hlog.remove _

/-- The registrations that are left when a load begins are linked to themselves. -/
theorem twin_dropOwned {kept : List (Entry Listener)} (hosted : S.Hosted H w)
    (same : SameHost H w v) (hw : S.desk < w.desks.size) (hv : S.desk < v.desks.size)
    (hleft : (w.desk S.desk).roll.Spares kept) (hright : (v.desk S.desk).roll.Spares kept)
    (hkept : ∀ e ∈ kept, ∃ f, e.handler = .host f ∧ H f.id) :
    S.Twin [] [] (.hosts H fun i => ∃ e ∈ kept, e.number = i) (w.dropOwned S.desk)
      (v.dropOwned S.desk) := by
  obtain ⟨log, hlog, hentries⟩ := holds_dropOwned hw hleft
  obtain ⟨log', hlog', hentries'⟩ := holds_dropOwned hv hright
  refine ⟨⟨hosted.codes_hosts same.functions _, ?_, ?_, ?_⟩, ?_, fun _ => ⟨rfl, rfl⟩⟩
  · rintro a b ⟨rfl, e, he, rfl⟩
    exact ⟨hlog.number_lt (hentries ▸ he), hlog'.number_lt (hentries' ▸ he)⟩
  · rw [World.dropOwned, World.size_changeDesk]
    exact hw
  · rw [World.dropOwned, World.size_changeDesk]
    exact hv
  · refine ⟨log, log', kept, kept, hlog, hlog', hentries, hentries', ?_⟩
    rw [List.forall₂_same]
    intro e he
    obtain ⟨f, hf, hid⟩ := hkept e he
    refine ⟨⟨rfl, e, he, rfl⟩, rfl, ?_⟩
    rw [hf]
    exact ⟨⟨rfl, rfl⟩, rfl, hid⟩

/-- **Loads with the same host look the same in the end**, if they begin with packs of the same
scripts and with the same handlers of the host. -/
theorem hosted_loads_alike {r : Runner ω γ} {m m' : Manager ω γ κ} {kept : List (Entry Listener)}
    (hstrict : S.strict) (hr : S.Uniform r m.plan.engine) (hplan : m'.plan = m.plan)
    (hdesk : m.desk = S.desk) (hdesk' : m'.desk = S.desk)
    (hpacks : List.Forall₂ ScriptPack.SameScripts (Manager.preparePacks m.plan m.packs)
      (Manager.preparePacks m.plan m'.packs))
    (hosted : S.Hosted H w) (steady : Registrar.Steady H m.plan.kind w.registrars)
    (same : SameHost H w v) (hw : S.desk < w.desks.size)
    (hv : S.desk < v.desks.size) (hleft : (w.desk S.desk).roll.Spares kept)
    (hright : (v.desk S.desk).roll.Spares kept)
    (hkept : ∀ e ∈ kept, ∃ f, e.handler = .host f ∧ H f.id) :
    (m.load r w = none → m'.load r v = none) ∧
    ∀ m₁ w₁, m.load r w = some (m₁, w₁) → ∃ m₂ v₂ ds es, m'.load r v = some (m₂, v₂) ∧
      m.chronicle r w = some ds ∧ m'.chronicle r v = some es ∧ m₁.SameView r w₁ m₂ v₂ ∧
      Deed.handings ds = Deed.handings es ∧
      Step.tallies S.desk w ds = Step.tallies S.desk v es ∧ SameHost H w w₁ ∧
      (S.tame → (w₁.desk S.desk).roll.Spares kept) := by
  obtain ⟨hcollect, hwithin⟩ := steady.collect_eq same.registrars (x := .empty) ⟨.nil, .nil⟩
  obtain ⟨hstops, hloads⟩ := loads_alike hstrict hr hplan hdesk hdesk' hpacks
    (same.listeners.symm ▸ hosted.listeners_hosts _)
    (hcollect.symm ▸ Registry.Within.hosts hwithin _)
    (twin_dropOwned hosted same hw hv hleft hright hkept) (fun _ _ hk => hk.2.elim)
  refine ⟨hstops, fun m₁ w₁ hload => ?_⟩
  obtain ⟨m₂, v₂, ds, es, hload', hds, hes, hview, hhandings, htallies, htame, hbecame⟩ :=
    hloads m₁ w₁ hload
  refine ⟨m₂, v₂, ds, es, hload', hds, hes, hview, hhandings, htallies, ⟨?_, ?_, ?_⟩, fun ht => ?_⟩
  · intro i hi
    obtain ⟨c, hc, -⟩ := hosted.codes i hi
    exact (hbecame.functions i c hc).trans hc.symm
  · exact hbecame.registrars
  · rw [hbecame.lifecycle]
    rfl
  · obtain ⟨ds', hds', rfl⟩ := Manager.exists_chronicle hload
    rw [hds] at hds'
    cases hds'
    rw [Deed.roll_replay hw]
    exact hleft.run (Deed.sparesHost_of_tame (htame ht))

/-- A load leaves the functions, registrars and listeners of the host as they were, and where the bus
is left to scripts also the handlers that the next load spares. -/
theorem spares_of_load {r : Runner ω γ} {m m₁ : Manager ω γ κ} {w₁ : World ω γ}
    {kept : List (Entry Listener)} (hstrict : S.strict) (hr : S.Uniform r m.plan.engine)
    (hdesk : m.desk = S.desk) (hosted : S.Hosted H w)
    (steady : Registrar.Steady H m.plan.kind w.registrars) (hw : S.desk < w.desks.size)
    (hkept : (w.desk S.desk).roll.Spares kept)
    (hhost : ∀ e ∈ kept, ∃ f, e.handler = .host f ∧ H f.id) (h : m.load r w = some (m₁, w₁)) :
    SameHost H w w₁ ∧ (S.tame → (w₁.desk S.desk).roll.Spares kept) := by
  -- the load is compared with itself
  obtain ⟨-, -, -, -, -, -, -, -, -, -, hsame, hspares⟩ :=
    (hosted_loads_alike hstrict hr (rfl : m.plan = m.plan) hdesk hdesk
      (List.forall₂_same.mpr fun k _ => .refl k) hosted steady ⟨fun _ _ => rfl, rfl, rfl⟩ hw hw hkept
      hkept hhost).2 m₁ w₁ h
  exact ⟨hsame, hspares⟩

end Scene

end PackHost
