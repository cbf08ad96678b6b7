import PackHost.Proofs.Event.Bus
import PackHost.Proofs.World.Act
import PackHost.World.Load

/-!
# Desks under acts

What a change of one desk does to every desk, and what no act ever does: desks neither come nor go,
lines that were written stay, and the unit that is being run stays the same (`Act.continues`). A bus
only ever becomes what a bus can become (`Act.reachable`).
-/

namespace PackHost

variable {ω γ : Type}

namespace World

@[simp] theorem size_changeDesk (w : World ω γ) (d : Nat) (f : Desk → Desk) :
    (w.changeDesk d f).desks.size = w.desks.size := by
  simp [changeDesk]

theorem desk_changeDesk (w : World ω γ) (d e : Nat) (f : Desk → Desk) :
    (w.changeDesk d f).desk e = if d = e ∧ d < w.desks.size then f (w.desk e) else w.desk e := by
  unfold changeDesk desk
  rw [Array.getElem?_modify]
  by_cases hde : d = e
  · subst hde
    by_cases hd : d < w.desks.size
    · simp [hd]
    · simp [hd]
  · simp [hde]

/-- What relates every desk to itself and to its change relates all desks before to those after. -/
theorem changeDesk_induct {R : Desk → Desk → Prop} (w : World ω γ) (d : Nat) {f : Desk → Desk}
    (hrefl : ∀ k, R k k) (hf : ∀ k, R k (f k)) (e : Nat) :
    R (w.desk e) ((w.changeDesk d f).desk e) := by
  rw [desk_changeDesk]
  split
  · exact hf _
  · exact hrefl _

theorem desk_say (w : World ω γ) (d : Nat) (level : Level) (text : String) (e : Nat) :
    (w.say d level text).desk e =
      (w.changeDesk d fun k => { k with lines := ⟨level, text⟩ :: k.lines }).desk e := by
  unfold say
  cases (w.desk d).sink <;> rfl

@[simp] theorem size_say (w : World ω γ) (d : Nat) (level : Level) (text : String) :
    (w.say d level text).desks.size = w.desks.size := by
  unfold say
  cases (w.desk d).sink <;> simp [note]

theorem lines_say {w : World ω γ} {d : Nat} (seated : d < w.desks.size) (e : Nat)
    (level : Level) (text : String) :
    ((w.say e level text).desk d).lines =
      (if e = d then [⟨level, text⟩] else []) ++ (w.desk d).lines := by
  rw [desk_say, desk_changeDesk]
  by_cases he : e = d
  · rw [if_pos ⟨he, he ▸ seated⟩, if_pos he]
    rfl
  · rw [if_neg fun h => he h.1, if_neg he]
    rfl

end World

/-! ## What stays -/

/-- The unit that is being run is the same, and no line is lost. -/
structure Desk.Continues (k k' : Desk) : Prop where
  unit : k'.currentUnit = k.currentUnit
  lines : k.lines <:+ k'.lines

theorem Desk.Continues.refl (k : Desk) : k.Continues k := ⟨rfl, List.suffix_refl _⟩

theorem Desk.Continues.trans {k k' k'' : Desk} (h : k.Continues k') (h' : k'.Continues k'') :
    k.Continues k'' :=
  ⟨h'.unit.trans h.unit, h.lines.trans h'.lines⟩

def World.Continues (w w' : World ω γ) : Prop :=
  w'.desks.size = w.desks.size ∧ ∀ d, (w.desk d).Continues (w'.desk d)

namespace World.Continues

theorem refl (w : World ω γ) : w.Continues w := ⟨rfl, fun _ => .refl _⟩

theorem trans {w w' w'' : World ω γ} (h : w.Continues w') (h' : w'.Continues w'') :
    w.Continues w'' :=
  ⟨h'.1.trans h.1, fun d => (h.2 d).trans (h'.2 d)⟩

theorem changeDesk (w : World ω γ) (d : Nat) {f : Desk → Desk}
    (hf : ∀ k : Desk, k.Continues (f k)) : w.Continues (w.changeDesk d f) :=
  ⟨size_changeDesk w d f, changeDesk_induct w d Desk.Continues.refl hf⟩

theorem say (w : World ω γ) (d : Nat) (level : Level) (text : String) :
    w.Continues (w.say d level text) := by
  refine ⟨size_say w d level text, fun e => ?_⟩
  have hline : ∀ k : Desk, k.Continues { k with lines := ⟨level, text⟩ :: k.lines } :=
    fun k => ⟨rfl, List.suffix_cons _ _⟩
  rw [desk_say]
  exact (changeDesk w d hline).2 e

end World.Continues

/-- What is noted about a handler that is over is nothing, an entry in the log, or an error line. -/
theorem Listener.settle_cases (l : Listener) (d : Nat) (event : String) (ended : Outcome Value)
    (w : World ω γ) :
    l.settle d event ended w = w ∨ (∃ entry, l.settle d event ended w = w.note entry) ∨
      ∃ text, l.settle d event ended w = w.say d .error text := by
  cases ended with
  | crashed message => exact .inr (.inl ⟨_, rfl⟩)
  | done v => exact .inl rfl
  | failed f =>
    cases l with
    | host g => exact .inl rfl
    | script g => exact .inr (.inr ⟨_, rfl⟩)

/-- **Acts go on with what is there.** -/
theorem Act.continues (a : Act ω γ) (w : World ω γ) : w.Continues (a.apply w) := by
  cases a with
  | put s => exact .refl w
  | made code => exact .refl w
  | listened d event l =>
    cases l with
    | host f => exact .changeDesk w d fun _ => ⟨rfl, List.suffix_refl _⟩
    | script f => exact .changeDesk w d fun _ => ⟨rfl, List.suffix_refl _⟩
  | removed d ids => exact .changeDesk w d fun _ => ⟨rfl, List.suffix_refl _⟩
  | cleared d => exact .changeDesk w d fun _ => ⟨rfl, List.suffix_refl _⟩
  | told d level message => exact .say w d level _
  | noted entry => exact .refl w
  | posted d event payload => exact .refl w
  | entered d event g => exact .refl w
  | left d event g ended =>
    show w.Continues (g.2.settle d event ended w)
    rcases g.2.settle_cases d event ended w with h | ⟨entry, h⟩ | ⟨text, h⟩
    · rw [h]
      exact .refl w
    · rw [h]
      exact .refl w
    · rw [h]
      exact .say w d .error text
  | closed d event => exact .refl w

theorem replay_continues (as : List (Act ω γ)) (w : World ω γ) : w.Continues (replay as w) := by
  induction as generalizing w with
  | nil => exact .refl w
  | cons a as ih => exact (a.continues w).trans (ih _)

/-! ## Buses -/

theorem World.changeDesk_reachable (w : World ω γ) (d : Nat) {f : Desk → Desk}
    (hf : ∀ k, k.bus.Reachable → (f k).bus.Reachable) {e : Nat} (h : (w.desk e).bus.Reachable) :
    ((w.changeDesk d f).desk e).bus.Reachable :=
  changeDesk_induct (R := fun k k' => k.bus.Reachable → k'.bus.Reachable) w d (fun _ hk => hk) hf
    e h

theorem World.say_reachable (w : World ω γ) (d : Nat) (level : Level) (text : String) {e : Nat}
    (h : (w.desk e).bus.Reachable) : ((w.say d level text).desk e).bus.Reachable := by
  rw [desk_say]
  refine changeDesk_reachable w d ?_ h
  intro k hk
  exact hk

theorem Act.reachable (a : Act ω γ) {w : World ω γ} {e : Nat} (h : (w.desk e).bus.Reachable) :
    ((a.apply w).desk e).bus.Reachable := by
  cases a with
  | put s => exact h
  | made code => exact h
  | listened d event l =>
    cases l with
    | host f => exact w.changeDesk_reachable d (fun _ hk => hk.listen event _) h
    | script f => exact w.changeDesk_reachable d (fun _ hk => hk.listen event _) h
  | removed d ids => exact w.changeDesk_reachable d (fun _ hk => hk.remove ids) h
  | cleared d => exact w.changeDesk_reachable d (fun _ hk => hk.clear) h
  | told d level message => exact w.say_reachable d level _ h
  | noted entry => exact h
  | posted d event payload => exact h
  | entered d event g => exact h
  | left d event g ended =>
    show ((g.2.settle d event ended w).desk e).bus.Reachable
    rcases g.2.settle_cases d event ended w with hs | ⟨entry, hs⟩ | ⟨text, hs⟩
    · rwa [hs]
    · rw [hs]
      exact h
    · rw [hs]
      exact w.say_reachable d .error text h
  | closed d event => exact h

theorem replay_reachable (as : List (Act ω γ)) {w : World ω γ} {e : Nat}
    (h : (w.desk e).bus.Reachable) : ((replay as w).desk e).bus.Reachable := by
  induction as generalizing w with
  | nil => exact h
  | cons a as ih => exact ih (a.reachable h)

end PackHost
