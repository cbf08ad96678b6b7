import PackHost.Proofs.Twin.Load

/-!
# Code that lives apart

What happens in one world is compared with what happens in another one, as far as a link `ρ` goes,
and everything else that happens in the first world is compared with itself by a link `σ`. As long
as the two links have no part of the state in common, each of the two kinds of code leaves the other
one alone: `Scene.Apart.foreign_step` and `Scene.Apart.own_step`.
-/

namespace PackHost

open Event Pack

variable {ω γ κ α β τ : Type}

namespace Scene

section

variable {S : Scene ω γ κ} {ρ : Link} {w v w' v' : World ω γ}

/-- What is linked stays linked, whatever else happens. -/
theorem Paired.kept (h : S.Paired ρ w v) {P Q : Nat → Prop} (hw : S.Kept P w w')
    (hv : S.Kept Q v v') : S.Paired ρ w' v' where
  codes a b hab := by
    obtain ⟨c, c', hc, hc', hcode⟩ := h.codes a b hab
    exact ⟨c, c', hw.functions a c hc, hv.functions b c' hc', hcode⟩
  numbers a b hab := by
    obtain ⟨ha, hb⟩ := h.numbers a b hab
    exact ⟨Nat.lt_of_lt_of_le ha hw.next, Nat.lt_of_lt_of_le hb hv.next⟩
  left := hw.desks.symm ▸ h.left
  right := hv.desks.symm ▸ h.right

/-- What is linked holds the same as long as only other parts change. -/
theorem Agree.spared {s s' t t' : ω} (h : S.Agree ρ s s') {P Q : Nat → Prop} (ht : S.Spares P s t)
    (hP : ∀ i, ρ.HasRight .realm i → ¬P i) (ht' : S.Spares Q s' t')
    (hQ : ∀ i, ρ.HasLeft .realm i → ¬Q i) : S.Agree ρ t t' := by
  intro k k' hk
  obtain ⟨m, m', hm, hm', hrecalls⟩ := h k k' hk
  refine ⟨m, m', ?_, ?_, hrecalls⟩
  · rw [ht.same k (by simp [hm]) (hP k ⟨k', hk⟩), hm]
  · rw [ht'.same k' (by simp [hm']) (hQ k' ⟨k, hk⟩), hm']

/-- Where not everything is compared, all registrations so far may be left out. -/
theorem Paired.twin (h : S.Paired ρ w v) (loose : ¬S.strict) {es es' : List (Entry Listener)}
    (hes : S.Holds w es) (hes' : S.Holds v es') : S.Twin es es' ρ w v where
  toPaired := h
  bus := by
    obtain ⟨log, hlog, rfl⟩ := hes
    obtain ⟨log', hlog', rfl⟩ := hes'
    exact ⟨log, log', [], [], hlog, hlog', (List.append_nil _).symm, (List.append_nil _).symm, .nil⟩
  base hstrict := absurd hstrict loose

end

variable (S : Scene ω γ κ)

/-- In the first world code that is compared with itself lives beside code that is compared with the
second world; no part of the state belongs to both. The buses hold the given registrations, and the
listeners of the host are foreign code. -/
structure Apart (σ ρ : Link) (es es' : List (Entry Listener)) (w v : World ω γ) : Prop where
  foreign : S.Paired σ w w
  foreignAgree : S.Agree σ w.state w.state
  own : S.Paired ρ w v
  ownAgree : S.Agree ρ w.state v.state
  apart : ∀ i, ρ.HasRight .realm i → ¬σ.HasRight .realm i ∧ ¬σ.HasLeft .realm i
  left : S.Holds w es
  right : S.Holds v es'
  listeners : ∀ f ∈ w.lifecycle.handlers scriptsLoaded, f.Linked σ f
  silent : v.lifecycle.handlers scriptsLoaded = []

variable {S}

namespace Apart

variable {σ ρ : Link} {es es' : List (Entry Listener)} {w v w' v' : World ω γ}

theorem congr (h : S.Apart σ ρ es es' w v) (hw : World.SameCore S.desk w w')
    (hv : World.SameCore S.desk v v') : S.Apart σ ρ es es' w' v' where
  foreign := h.foreign.congr hw hw
  foreignAgree := h.foreignAgree.congr hw hw
  own := h.own.congr hw hv
  ownAgree := h.ownAgree.congr hw hv
  apart := h.apart
  left := by
    obtain ⟨log, hlog, hes⟩ := h.left
    exact ⟨log, hw.bus ▸ hlog, hes⟩
  right := by
    obtain ⟨log, hlog, hes⟩ := h.right
    exact ⟨log, hv.bus ▸ hlog, hes⟩
  listeners := by
    rw [hw.lifecycle]
    exact h.listeners
  silent := by
    rw [hv.lifecycle]
    exact h.silent

variable [Step τ ω γ]

/-- **Foreign code leaves own code alone.** Nothing happens in the second world meanwhile. -/
theorem foreign_step (h : S.Apart σ ρ es es' w v) {A : Link → α → α → Prop}
    {x : Option (α × List τ)} {a : α} {ss : List τ} (hx : x = some (a, ss)) (quiet : Step.Quiet ss)
    (hkeeps : S.Keeps A es es σ w w x x) :
    ∃ σ' news, σ ≤ σ' ∧ S.Apart σ' ρ (es ++ news) es' (Step.replay ss w) v ∧
      (∀ e ∈ news, e.handler.Linked σ' e.handler) ∧ A σ' a a := by
  obtain ⟨σ', b, ts, hy, hreached, hagree, hab⟩ := hkeeps.answers a ss hx (.inr quiet)
  rw [hx] at hy
  cases hy
  obtain ⟨log, log', news, news', hlog, hlog', hnews, hnews', hall⟩ := hreached.twin.bus
  have hsame := hlog.entries_unique hlog'
  rw [hnews, hnews'] at hsame
  obtain rfl := List.append_cancel_left hsame
  refine ⟨σ', news, hreached.grows.le, ?_, fun e he => (List.forall₂_same.mp hall e he).handler, hab⟩
  constructor
  · exact hreached.twin.toPaired
  · exact hagree
  · exact h.own.kept hreached.grows.left (.refl (fun _ => False) v)
  · exact h.ownAgree.spared hreached.grows.left.spares (fun i hi => (h.apart i hi).1)
      (.refl (fun _ => False) _) (fun _ _ => id)
  · -- the parts that foreign code opens are new, so they are not those of own code
    intro i hi
    obtain ⟨j, hj⟩ := hi
    obtain ⟨m, -, hm, -⟩ := h.ownAgree i j hj
    have hgiven : S.Given w .realm i := by simp [Given, hm]
    constructor
    · rintro ⟨k, hk⟩
      rcases hreached.grows.fresh _ _ _ hk with hk | ⟨hnew, -⟩
      · exact (h.apart i ⟨j, hj⟩).1 ⟨k, hk⟩
      · exact hnew hgiven
    · rintro ⟨k, hk⟩
      rcases hreached.grows.fresh _ _ _ hk with hk | ⟨-, hnew⟩
      · exact (h.apart i ⟨j, hj⟩).2 ⟨k, hk⟩
      · exact hnew hgiven
  · exact ⟨log, hlog, hnews⟩
  · exact h.right
  · rw [hreached.grows.left.lifecycle]
    exact fun f hf => (h.listeners f hf).mono hreached.grows.le
  · exact h.silent

/-- **Own code does alike in both worlds**, and leaves foreign code alone. -/
theorem own_step (h : S.Apart σ ρ es es' w v) {A : Link → α → β → Prop}
    {x : Option (α × List τ)} {y : Option (β × List τ)} {a : α} {ss : List τ} (hx : x = some (a, ss))
    (quiet : Step.Quiet ss) (hkeeps : S.Keeps A es es' ρ w v x y) :
    ∃ ρ' b ts news news', y = some (b, ts) ∧ ρ ≤ ρ' ∧
      S.Apart σ ρ' (es ++ news) (es' ++ news') (Step.replay ss w) (Step.replay ts v) ∧
      List.Forall₂ (Entry.Linked ρ') news news' ∧ A ρ' a b := by
  obtain ⟨ρ', b, ts, hy, hreached, hagree, hab⟩ := hkeeps.answers a ss hx (.inr quiet)
  obtain ⟨log, log', news, news', hlog, hlog', hnews, hnews', hall⟩ := hreached.twin.bus
  refine ⟨ρ', b, ts, news, news', hy, hreached.grows.le, ?_, hall, hab⟩
  constructor
  · exact h.foreign.kept hreached.grows.left hreached.grows.left
  · exact h.foreignAgree.spared hreached.grows.left.spares (fun i hi hi' => (h.apart i hi').1 hi)
      hreached.grows.left.spares (fun i hi hi' => (h.apart i hi').2 hi)
  · exact hreached.twin.toPaired
  · exact hagree
  · rintro i ⟨j, hj⟩
    rcases hreached.grows.fresh _ _ _ hj with hj | ⟨hnew, -⟩
    · exact h.apart i ⟨j, hj⟩
    · constructor
      · rintro ⟨k, hk⟩
        obtain ⟨m, -, hm, -⟩ := h.foreignAgree i k hk
        exact hnew (by simp [Given, hm])
      · rintro ⟨k, hk⟩
        obtain ⟨-, m, -, hm, -⟩ := h.foreignAgree k i hk
        exact hnew (by simp [Given, hm])
  · exact ⟨log, hlog, hnews⟩
  · exact ⟨log', hlog', hnews'⟩
  · rw [hreached.grows.left.lifecycle]
    exact h.listeners
  · rw [hreached.grows.right.lifecycle]
    exact h.silent

end Apart

end Scene

end PackHost
