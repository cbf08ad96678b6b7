import PackHost.Proofs.Manager.Deed
import PackHost.Proofs.Twin.World

/-!
# Journals side by side

What a computation does is written down in steps, acts or deeds. `Scene.Keeps` compares two
computations with their steps: if the left one has an answer, so has the right one, the answers are
related, the worlds are alike again, and all posts have found as many handlers. `Keeps.bind` puts
comparisons one after another.
-/

namespace PackHost

open Event

variable {ω γ κ α β α' β' σ : Type}

/-! ## Steps -/

class Step (σ : Type) (ω γ : outParam Type) where
  apply : σ → World ω γ → World ω γ
  /-- The event of a post at a desk that begins with the step, and how many handlers it has. -/
  tally : Nat → World ω γ → σ → List (String × Nat)
  isQuiet : σ → Bool
  isTame : Nat → σ → Bool

namespace Act

/-- The event of a post at the desk that begins, and how many handlers it has. -/
def tally (d : Nat) (w : World ω γ) : Act ω γ → List (String × Nat)
  | .posted e event _ => if e = d then [(event, (w.desk d).bus.count event)] else []
  | _ => []

def isQuiet : Act ω γ → Bool
  | .posted .. => false
  | _ => true

/-- Whether the handlers of the host at the desk are left alone. -/
def isTame (d : Nat) : Act ω γ → Bool
  | .listened e _ l => e != d || l.isScript
  | .removed e _ => e != d
  | .cleared e => e != d
  | _ => true

instance : Step (Act ω γ) ω γ := ⟨apply, tally, isQuiet, isTame⟩

end Act

namespace Deed

/-- The event of a post at the desk that begins, and how many handlers it has. -/
def tally (d : Nat) (w : World ω γ) : Deed ω γ κ → List (String × Nat)
  | .act a => a.tally d w
  | _ => []

def isQuiet : Deed ω γ κ → Bool
  | .act a => a.isQuiet
  | _ => true

/-- Whether the handlers of the host at the desk are left alone. -/
def isTame (d : Nat) : Deed ω γ κ → Bool
  | .act a => a.isTame d
  | .unloaded e => e != d
  | _ => true

instance : Step (Deed ω γ κ) ω γ := ⟨apply, tally, isQuiet, isTame⟩

end Deed

namespace Step

variable [Step σ ω γ]

def replay (ss : List σ) (w : World ω γ) : World ω γ := ss.foldl (fun w s => apply s w) w

def Quiet (ss : List σ) : Prop := ∀ s ∈ ss, isQuiet s

/-- All steps leave the handlers of the host at the desk alone. -/
def Tame (d : Nat) (ss : List σ) : Prop := ∀ s ∈ ss, isTame d s

/-- The events that are posted at the desk, and how many handlers each post finds. -/
def tallies (d : Nat) : World ω γ → List σ → List (String × Nat)
  | _, [] => []
  | w, s :: ss => tally d w s ++ tallies d (apply s w) ss

def posts (ss : List σ) : Nat := ss.countP fun s => !isQuiet s

theorem posts_append (ss ts : List σ) : posts (ss ++ ts) = posts ss + posts ts :=
  List.countP_append

theorem quiet_iff_posts_eq_zero {ss : List σ} : Quiet ss ↔ posts ss = 0 := by
  simp [Quiet, posts, List.countP_eq_zero]

theorem replay_append (ss ts : List σ) (w : World ω γ) :
    replay (ss ++ ts) w = replay ts (replay ss w) :=
  List.foldl_append

theorem quiet_append {ss ts : List σ} : Quiet (ss ++ ts) ↔ Quiet ss ∧ Quiet ts := by
  simp only [Quiet, List.mem_append, or_imp, forall_and]

theorem tame_nil {d : Nat} : Tame d ([] : List σ) := fun _ hs => by cases hs

theorem tame_singleton {d : Nat} {s : σ} (h : isTame d s) : Tame d [s] :=
  List.forall_mem_singleton.mpr h

theorem tame_append {d : Nat} {ss ts : List σ} : Tame d (ss ++ ts) ↔ Tame d ss ∧ Tame d ts := by
  simp only [Tame, List.mem_append, or_imp, forall_and]

theorem tallies_append (d : Nat) (w : World ω γ) (ss ts : List σ) :
    tallies d w (ss ++ ts) = tallies d w ss ++ tallies d (replay ss w) ts := by
  induction ss generalizing w with
  | nil => rfl
  | cons s ss ih =>
    rw [List.cons_append, tallies, tallies, ih, List.append_assoc]
    rfl

end Step

/-- A program that only reads comes to its end without a post. -/
theorem Program.Reads.run {p : Program ω γ α} (h : p.Reads) (call : Reporter ω γ)
    (w : World ω γ) : ∃ a as, Journal.run call p w = some (a, as) ∧ Step.Quiet as := by
  induction h generalizing w with
  | done a => exact ⟨a, [], rfl, fun _ hs => by cases hs⟩
  | get _ ih =>
    rw [Journal.run, Journal.ask_bind]
    exact ih _ w
  | @set s next _ ih =>
    obtain ⟨a, as, hrun, hquiet⟩ := ih { w with state := s }
    refine ⟨a, .put s :: as, ?_, List.forall_mem_cons.mpr ⟨rfl, hquiet⟩⟩
    rw [Journal.run, Journal.act_bind, Act.apply, hrun]
    rfl
  | @create name arity code next _ ih =>
    obtain ⟨a, as, hrun, hquiet⟩ := ih (w.newHandle name arity) (w.define (.closure code))
    refine ⟨a, .made code :: as, ?_, List.forall_mem_cons.mpr ⟨rfl, hquiet⟩⟩
    rw [Journal.run, Journal.ask_bind, Journal.act_bind, Act.apply, hrun]
    rfl

/-! ## Comparing what was done -/

namespace Scene

variable [Step σ ω γ] (S : Scene ω γ κ)

/-- What the steps on both sides have led to: the link has grown, the worlds are alike, all posts have
found as many handlers, and where the bus is left to scripts, the handlers of the host are there as
before. -/
structure Reached (base base' : List (Entry Listener)) (ρ : Link) (w v : World ω γ) (ρ' : Link)
    (ss ts : List σ) : Prop where
  grows : S.Grows ρ w v ρ' (Step.replay ss w) (Step.replay ts v)
  twin : S.Twin base base' ρ' (Step.replay ss w) (Step.replay ts v)
  tallies : Step.tallies S.desk w ss = Step.tallies S.desk v ts
  tame : S.tame → Step.Tame S.desk ss

/-- What the two computations do in the given worlds is alike. Where not everything is compared,
this is said of what makes no posts on the left. -/
structure Keeps (A : Link → α → β → Prop) (base base' : List (Entry Listener)) (ρ : Link)
    (w v : World ω γ) (x : Option (α × List σ)) (y : Option (β × List σ)) : Prop where
  stops : S.strict → x = none → y = none
  answers : ∀ a ss, x = some (a, ss) → S.strict ∨ Step.Quiet ss → ∃ ρ' b ts, y = some (b, ts) ∧
    S.Reached base base' ρ w v ρ' ss ts ∧
    S.Agree ρ' (Step.replay ss w).state (Step.replay ts v).state ∧ A ρ' a b

/-- The two computations do alike in all worlds that are alike, for all links from the given one
on. -/
def Lock (A : Link → α → β → Prop) (ρ : Link) (x : Journal ω γ α) (y : Journal ω γ β) : Prop :=
  ∀ base base' ρ₁ w v, ρ ≤ ρ₁ → S.Twin base base' ρ₁ w v → S.Agree ρ₁ w.state v.state →
    S.Keeps A base base' ρ₁ w v (x w) (y v)

variable {S} {base base' : List (Entry Listener)} {ρ : Link} {w v : World ω γ}

/-- What is linked of the states does not change when the link grows elsewhere. -/
theorem Agree.mono {ρ' : Link} (hle : ρ ≤ ρ') (hrealms : ∀ i j, ρ' .realm i j → ρ .realm i j)
    {s s' : ω} (h : S.Agree ρ s s') : S.Agree ρ' s s' := by
  intro k k' hk
  obtain ⟨m, m', hm, hm', hrecalls⟩ := h k k' (hrealms k k' hk)
  exact ⟨m, m', hm, hm', S.recalls_mono hle hrecalls⟩

theorem Agree.congr {w' v' : World ω γ} (h : S.Agree ρ w.state v.state)
    (hw : World.SameCore S.desk w w') (hv : World.SameCore S.desk v v') :
    S.Agree ρ w'.state v'.state := by
  rw [hw.state, hv.state]
  exact h

namespace Reached

theorem refl (h : S.Twin base base' ρ w v) :
    S.Reached base base' ρ w v ρ ([] : List σ) ([] : List σ) :=
  ⟨.refl ρ w v, h, rfl, fun _ => Step.tame_nil⟩

theorem append {ρ' ρ'' : Link} {ss ss' ts ts' : List σ}
    (h : S.Reached base base' ρ w v ρ' ss ts)
    (h' : S.Reached base base' ρ' (Step.replay ss w) (Step.replay ts v) ρ'' ss' ts') :
    S.Reached base base' ρ w v ρ'' (ss ++ ss') (ts ++ ts') where
  grows := by
    rw [Step.replay_append, Step.replay_append]
    exact h.grows.trans h'.grows
  twin := by
    rw [Step.replay_append, Step.replay_append]
    exact h'.twin
  tallies := by rw [Step.tallies_append, Step.tallies_append, h.tallies, h'.tallies]
  tame ht := Step.tame_append.mpr ⟨h.tame ht, h'.tame ht⟩

/-- Steps that leave the cores of both worlds alone. -/
theorem of_sameCore {ss ts : List σ} (h : S.Twin base base' ρ w v)
    (hw : World.SameCore S.desk w (Step.replay ss w))
    (hv : World.SameCore S.desk v (Step.replay ts v))
    (htallies : Step.tallies S.desk w ss = Step.tallies S.desk v ts) (htame : Step.Tame S.desk ss) :
    S.Reached base base' ρ w v ρ ss ts where
  grows := .of_kept (.of_sameCore hw) (.of_sameCore hv)
  twin := h.congr hw hv
  tallies := htallies
  tame _ := htame

end Reached

namespace Keeps

variable {A : Link → α → β → Prop} {B : Link → α' → β' → Prop}

theorem pure {a : α} {b : β} (h : S.Twin base base' ρ w v) (hagree : S.Agree ρ w.state v.state)
    (hab : A ρ a b) :
    S.Keeps A base base' ρ w v (some (a, ([] : List σ))) (some (b, ([] : List σ))) where
  stops _ hx := by cases hx
  answers a' ss hx _ := by
    cases hx
    exact ⟨ρ, b, [], rfl, .refl h, hagree, hab⟩

theorem stuck {y : Option (β × List σ)} (hy : S.strict → y = none) :
    S.Keeps A base base' ρ w v (none : Option (α × List σ)) y where
  stops hstrict _ := hy hstrict
  answers a ss hx _ := by cases hx

theorem map {k : α × List σ → α'} {l : β × List σ → β'} {x : Option (α × List σ)}
    {y : Option (β × List σ)} (h : S.Keeps A base base' ρ w v x y)
    (hkl : ∀ ρ' a b ss ts, ρ ≤ ρ' → A ρ' a b → B ρ' (k (a, ss)) (l (b, ts))) :
    S.Keeps B base base' ρ w v (x.map fun s => (k s, s.2)) (y.map fun s => (l s, s.2)) where
  stops hstrict hx := by
    rw [Option.map_eq_none_iff] at hx ⊢
    exact h.stops hstrict hx
  answers a ss hx hquiet := by
    obtain ⟨⟨a', ss'⟩, hx', heq⟩ := Option.map_eq_some_iff.mp hx
    cases heq
    obtain ⟨ρ', b, ts, hy, hreached, hagree, hab⟩ := h.answers _ _ hx' hquiet
    exact ⟨ρ', _, ts, by rw [hy]; rfl, hreached, hagree, hkl ρ' _ _ _ _ hreached.grows.le hab⟩

theorem after {ρ' : Link} {ss ts : List σ} {x : Option (α × List σ)} {y : Option (β × List σ)}
    (h : S.Reached base base' ρ w v ρ' ss ts)
    (hxy : S.Keeps A base base' ρ' (Step.replay ss w) (Step.replay ts v) x y) :
    S.Keeps A base base' ρ w v (x.map fun s => (s.1, ss ++ s.2))
      (y.map fun s => (s.1, ts ++ s.2)) where
  stops hstrict hx := by
    rw [Option.map_eq_none_iff] at hx ⊢
    exact hxy.stops hstrict hx
  answers a us hx hquiet := by
    obtain ⟨⟨a', ss'⟩, hx', heq⟩ := Option.map_eq_some_iff.mp hx
    cases heq
    obtain ⟨ρ'', b, ts', hy, hreached, hagree, hab⟩ :=
      hxy.answers _ _ hx' (hquiet.imp_right fun hq => (Step.quiet_append.mp hq).2)
    refine ⟨ρ'', b, ts ++ ts', ?_, h.append hreached, ?_, hab⟩
    · rw [hy]
      rfl
    · rw [Step.replay_append, Step.replay_append]
      exact hagree

theorem andThen {x : Option (α × List σ)} {y : Option (β × List σ)}
    {f : α × List σ → Option (α' × List σ)} {g : β × List σ → Option (β' × List σ)}
    (h : S.Keeps A base base' ρ w v x y)
    (hfg : ∀ ρ' a b ss ts, x = some (a, ss) → y = some (b, ts) →
      S.Reached base base' ρ w v ρ' ss ts →
      S.Agree ρ' (Step.replay ss w).state (Step.replay ts v).state → A ρ' a b →
      S.Keeps B base base' ρ' (Step.replay ss w) (Step.replay ts v) (f (a, ss)) (g (b, ts))) :
    S.Keeps B base base' ρ w v (x.bind fun s => (f s).map fun t => (t.1, s.2 ++ t.2))
      (y.bind fun s => (g s).map fun t => (t.1, s.2 ++ t.2)) := by
  cases hx : x with
  | none =>
    refine .stuck fun hstrict => ?_
    rw [h.stops hstrict hx]
    rfl
  | some s =>
    obtain ⟨a, ss⟩ := s
    constructor
    · intro hstrict hnone
      obtain ⟨ρ', b, ts, hy, hreached, hagree, hab⟩ := h.answers a ss hx (.inl hstrict)
      rw [hy]
      exact ((hfg ρ' a b ss ts hx hy hreached hagree hab).after hreached).stops hstrict hnone
    · intro c us hsome hquiet
      have hfirst : S.strict ∨ Step.Quiet ss := by
        refine hquiet.imp_right fun hq => ?_
        obtain ⟨_, -, heq⟩ := Option.map_eq_some_iff.mp hsome
        cases heq
        exact (Step.quiet_append.mp hq).1
      obtain ⟨ρ', b, ts, hy, hreached, hagree, hab⟩ := h.answers a ss hx hfirst
      rw [hy]
      exact ((hfg ρ' a b ss ts hx hy hreached hagree hab).after hreached).answers c us hsome hquiet

theorem bind {x : Journal ω γ α} {y : Journal ω γ β} {f : α → Journal ω γ α'}
    {g : β → Journal ω γ β'} (h : S.Keeps A base base' ρ w v (x w) (y v))
    (hfg : ∀ ρ' a b (as bs : List (Act ω γ)), S.Reached base base' ρ w v ρ' as bs →
      S.Agree ρ' (Step.replay as w).state (Step.replay bs v).state → A ρ' a b →
      S.Keeps B base base' ρ' (Step.replay as w) (Step.replay bs v) (f a (Step.replay as w))
        (g b (Step.replay bs v))) :
    S.Keeps B base base' ρ w v (x.bind f w) (y.bind g v) :=
  h.andThen (f := fun s => f s.1 (Step.replay s.2 w)) (g := fun s => g s.1 (Step.replay s.2 v))
    fun ρ' a b as bs _ _ => hfg ρ' a b as bs

end Keeps

end Scene

end PackHost
