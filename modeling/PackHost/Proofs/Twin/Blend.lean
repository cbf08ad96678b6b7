import PackHost.Proofs.Twin.Apart
import PackHost.Proofs.World.Dispatch

/-!
# Handlers that live apart

At the end of a load the handlers of all packs are run one after another. `Scene.Blend` says which
of them belong to own code and which are foreign; running them all keeps both kinds of code apart
(`Scene.Apart.farewell`).
-/

namespace PackHost

open Event Pack

variable {ω γ κ α β : Type}

namespace Scene

/-- The registrations on the left are those on the right, with foreign ones in between. -/
inductive Blend (σ ρ : Link) : List (Entry Listener) → List (Entry Listener) → Prop
  | nil : Blend σ ρ [] []
  | foreign {e : Entry Listener} {es es' : List (Entry Listener)} :
      e.handler.Linked σ e.handler → Blend σ ρ es es' → Blend σ ρ (e :: es) es'
  | own {e e' : Entry Listener} {es es' : List (Entry Listener)} :
      e.Linked ρ e' → Blend σ ρ es es' → Blend σ ρ (e :: es) (e' :: es')

namespace Blend

variable {σ ρ : Link} {es es' : List (Entry Listener)}

theorem append {fs fs' : List (Entry Listener)} (h : Blend σ ρ es es') (h' : Blend σ ρ fs fs') :
    Blend σ ρ (es ++ fs) (es' ++ fs') := by
  induction h with
  | nil => exact h'
  | foreign he _ ih => exact .foreign he ih
  | own he _ ih => exact .own he ih

theorem of_foreign (h : ∀ e ∈ es, e.handler.Linked σ e.handler) : Blend σ ρ es [] := by
  induction es with
  | nil => exact .nil
  | cons e es ih =>
    obtain ⟨he, hes⟩ := List.forall_mem_cons.mp h
    exact .foreign he (ih hes)

theorem of_own (h : List.Forall₂ (Entry.Linked ρ) es es') : Blend σ ρ es es' := by
  induction h with
  | nil => exact .nil
  | cons he _ ih => exact .own he ih

theorem named (h : Blend σ ρ es es') (event : String) :
    Blend σ ρ (es.filter fun e => e.event = event) (es'.filter fun e => e.event = event) := by
  induction h with
  | nil => exact .nil
  | @foreign e es es' he _ ih =>
    by_cases hevent : e.event = event
    · rw [List.filter_cons_of_pos (by simpa using hevent)]
      exact .foreign he ih
    · rw [List.filter_cons_of_neg (by simpa using hevent)]
      exact ih
  | @own e e' es es' he _ ih =>
    have hsame := he.event
    by_cases hevent : e.event = event
    · rw [List.filter_cons_of_pos (by simpa using hevent),
        List.filter_cons_of_pos (by simpa using hsame ▸ hevent)]
      exact .own he ih
    · rw [List.filter_cons_of_neg (by simpa using hevent),
        List.filter_cons_of_neg (by simpa using hsame ▸ hevent)]
      exact ih

end Blend

variable {S : Scene ω γ κ}

/-- After what was done on both sides, both kinds of code still live apart. -/
def StaysApart (S : Scene ω γ κ) (σ ρ : Link) (w v : World ω γ) : Prop :=
  ∃ σ' ρ' es es', σ ≤ σ' ∧ ρ ≤ ρ' ∧ S.Apart σ' ρ' es es' w v

theorem StaysApart.of_le {σ σ' ρ ρ' : Link} {w v : World ω γ} (hσ : σ ≤ σ') (hρ : ρ ≤ ρ')
    (h : S.StaysApart σ' ρ' w v) : S.StaysApart σ ρ w v := by
  obtain ⟨σ'', ρ'', es, es', hσ', hρ', hapart⟩ := h
  exact ⟨σ'', ρ'', es, es', Link.le_trans hσ hσ', Link.le_trans hρ hρ', hapart⟩

namespace Apart

variable {σ ρ : Link} {es es' : List (Entry Listener)} {w v : World ω γ}
  {call : Reporter ω γ}

/-- Handlers of both kinds run one after another; only those of own code run in the second world. -/
theorem dispatch (hcall : S.Calls call) (loose : ¬S.strict) (event : String) {σ₀ ρ₀ : Link}
    {fs fs' : List (Entry Listener)} (hblend : Blend σ₀ ρ₀ fs fs') (hσ : σ₀ ≤ σ) (hρ : ρ₀ ≤ ρ)
    (h : S.Apart σ ρ es es' w v) {as : List (Act ω γ)}
    (hrun : Journal.dispatch call S.desk event .unit (fs.map Entry.pair) w = some ((), as))
    (quiet : Step.Quiet as) :
    ∃ bs, Journal.dispatch call S.desk event .unit (fs'.map Entry.pair) v = some ((), bs) ∧
      S.StaysApart σ ρ (replay as w) (replay bs v) := by
  have hunit : ∀ ρ, Value.unit.Linked ρ .unit := fun _ => trivial
  induction hblend generalizing es es' w v as σ ρ with
  | nil =>
    cases hrun
    exact ⟨[], rfl, σ, ρ, es, es', Link.le_refl σ, Link.le_refl ρ, h⟩
  | @foreign e fs fs' he _ ih =>
    rw [List.map_cons, ← List.singleton_append, Journal.dispatch_append] at hrun
    obtain ⟨_, as₁, as₂, hfirst, hrest, rfl⟩ := Journal.bind_eq_some hrun
    obtain ⟨hquiet₁, hquiet₂⟩ := Step.quiet_append.mp quiet
    have hpair : List.Forall₂ (fun g g' => g.2.Linked σ g'.2) [e.pair] [e.pair] :=
      .cons (he.mono hσ) .nil
    have hself := lock_dispatch hcall event (hunit σ) hpair es es σ w w (Link.le_refl σ)
      (h.foreign.twin loose h.left h.left) h.foreignAgree
    obtain ⟨σ₁, news, hσ₁, happart, -, -⟩ := h.foreign_step hfirst hquiet₁ hself
    obtain ⟨bs, hbs, hstays⟩ := ih (Link.le_trans hσ hσ₁) hρ happart hrest hquiet₂
    refine ⟨bs, hbs, ?_⟩
    rw [replay_append]
    exact hstays.of_le hσ₁ (Link.le_refl ρ)
  | @own e e' fs fs' he _ ih =>
    rw [List.map_cons, ← List.singleton_append, Journal.dispatch_append] at hrun
    obtain ⟨_, as₁, as₂, hfirst, hrest, rfl⟩ := Journal.bind_eq_some hrun
    obtain ⟨hquiet₁, hquiet₂⟩ := Step.quiet_append.mp quiet
    have hpair : List.Forall₂ (fun g g' => g.2.Linked ρ g'.2) [e.pair] [e'.pair] :=
      .cons (he.handler.mono hρ) .nil
    have hboth := lock_dispatch hcall event (hunit ρ) hpair es es' ρ w v (Link.le_refl ρ)
      (h.own.twin loose h.left h.right) h.ownAgree
    obtain ⟨ρ₁, _, bs₁, news, news', hfirst', hρ₁, happart, -, -⟩ :=
      h.own_step hfirst hquiet₁ hboth
    obtain ⟨bs₂, hbs₂, hstays⟩ := ih hσ (Link.le_trans hρ hρ₁) happart hrest hquiet₂
    refine ⟨bs₁ ++ bs₂, ?_, ?_⟩
    · rw [List.map_cons, ← List.singleton_append, Journal.dispatch_append, Journal.bind, hfirst']
      simp only [Option.bind_some]
      rw [show replay bs₁ v = Step.replay bs₁ v from rfl, hbs₂]
      rfl
    · rw [replay_append, replay_append]
      exact hstays.of_le (Link.le_refl σ) hρ₁

/-- The end of a load keeps both kinds of code apart, if its own post is the only one. -/
theorem farewell {r : Runner ω γ} {m m' : Manager ω γ κ} (hcall : S.Calls r.report)
    (loose : ¬S.strict) (hdesk : m.desk = S.desk) (hdesk' : m'.desk = S.desk)
    (hblend : Blend σ ρ es es') (h : S.Apart σ ρ es es' w v)
    {as : List (Act ω γ)}
    (hrun : m.farewell r w = some ((), as)) (hposts : Step.posts as ≤ 1) :
    ∃ bs, m'.farewell r v = some ((), bs) ∧ S.StaysApart σ ρ (replay as w) (replay bs v) := by
  rw [Manager.farewell, hdesk] at hrun
  rw [Manager.farewell, hdesk']
  obtain ⟨n, posted, told, hpost, htell, rfl⟩ := Journal.bind_eq_some hrun
  rw [Journal.post_eq] at hpost
  obtain ⟨⟨_, body⟩, hbody, hpost⟩ := Option.map_eq_some_iff.mp hpost
  cases hpost
  -- the post of the manager is one, so there is none in its handlers and none by listeners
  have hquiet : Step.Quiet body ∧ Step.Quiet told := by
    have hone : Step.posts (.posted S.desk loadedEvent .unit :: body ++
        [.closed S.desk loadedEvent] ++ told : List (Act ω γ)) = 1 + Step.posts body +
          Step.posts told := by
      rw [Step.posts_append, Step.posts_append, ← List.singleton_append, Step.posts_append]
      rfl
    rw [Step.quiet_iff_posts_eq_zero, Step.quiet_iff_posts_eq_zero]
    have hposts : 1 + Step.posts body + Step.posts told ≤ 1 := hone ▸ hposts
    omega
  have hnamed : ∀ {w : World ω γ} {es : List (Entry Listener)}, S.Holds w es →
      (w.desk S.desk).bus.registered loadedEvent =
        (es.filter fun e => e.event = loadedEvent).map Entry.pair := by
    rintro w es ⟨log, hlog, rfl⟩
    exact hlog.registered loadedEvent
  rw [hnamed h.left] at hbody
  obtain ⟨bs, hbs, σ₁, ρ₁, fs, fs', hσ₁, hρ₁, happart⟩ := dispatch hcall loose loadedEvent
    (hblend.named loadedEvent) (Link.le_refl σ) (Link.le_refl ρ) h hbody hquiet.1
  have hpost' : Journal.post r.report S.desk loadedEvent .unit v = some
      (((v.desk S.desk).bus.registered loadedEvent).length,
        .posted S.desk loadedEvent .unit :: bs ++ [.closed S.desk loadedEvent]) := by
    rw [Journal.post_eq, hnamed h.right, hbs]
    rfl
  have hworld : ∀ (as : List (Act ω γ)) (w : World ω γ), replay (.posted S.desk loadedEvent .unit ::
      as ++ [.closed S.desk loadedEvent]) w = replay as w := by
    intro as w
    rw [replay_append]
    rfl
  have hworld₁ := hworld body w
  rw [hworld₁, Journal.ask_bind, lifecycle_replay] at htell
  obtain ⟨σ₂, news, hσ₂, happart₂, -, -⟩ := happart.foreign_step htell hquiet.2
    (lock_tellAll hcall (List.forall₂_same.mpr h.listeners) fs fs σ₁ _ _ hσ₁
      (happart.foreign.twin loose happart.left happart.left) happart.foreignAgree)
  refine ⟨.posted S.desk loadedEvent .unit :: bs ++ [.closed S.desk loadedEvent], ?_, ?_⟩
  · rw [Journal.bind, hpost', Option.bind_some, hworld, Journal.ask_bind, lifecycle_replay, h.silent]
    simp [Journal.tellAll, Journal.pure]
  · rw [hworld, replay_append, hworld]
    exact ⟨σ₂, ρ₁, _, _, Link.le_trans hσ₁ hσ₂, hρ₁, happart₂⟩

end Apart

end Scene

end PackHost
