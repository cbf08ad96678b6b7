import PackHost.Proofs.World.Desk

/-!
# Handlers and who registered them

The bus of a desk and the list of the registrations that scripts made change together. `standing`
reads off a history of changes which registrations are still in force: those that nothing later
undoes. `Recorded` says that bus and list agree with the history, and every change keeps it so.
-/

namespace PackHost

def Listener.isScript : Listener → Bool
  | .host _ => false
  | .script _ => true

/-- The handlers at a desk, and the numbers of those that scripts registered since the last load
began. -/
structure Roll where
  bus : Event.Bus Listener
  owned : List Nat

def Desk.roll (k : Desk) : Roll := ⟨k.bus, k.owned⟩

/-- Something that happens to the handlers at a desk. -/
inductive Change where
  | listened (event : String) (l : Listener)
  | removed (ids : List Nat)
  | cleared
  | loading
  | unloaded

namespace Change

def apply : Change → Roll → Roll
  | .listened event l, s =>
    ⟨s.bus.listen event l, if l.isScript then s.bus.next :: s.owned else s.owned⟩
  | .removed ids, s => ⟨s.bus.remove ids, s.owned⟩
  | .cleared, s => ⟨s.bus.clear, s.owned⟩
  | .loading, s => ⟨s.bus.remove s.owned, []⟩
  | .unloaded, s => ⟨s.bus.clear, []⟩

/-- Whether the change is meant to undo the registration with the given number: a load that begins
undoes all registrations by scripts. -/
def undoes (number : Nat) (l : Listener) : Change → Bool
  | .listened .. => false
  | .removed ids => ids.contains number
  | .cleared => true
  | .loading => l.isScript
  | .unloaded => true

end Change

/-! ## Registrations that stand -/

structure Listening where
  number : Nat
  event : String
  listener : Listener
  later : List Change

namespace Listening

/-- Whether nothing has undone the registration. -/
def stands (g : Listening) : Bool := !g.later.any (Change.undoes g.number g.listener)

def after (cs : List Change) (g : Listening) : Listening := { g with later := g.later ++ cs }

def entry (g : Listening) : Nat × Listener := (g.number, g.listener)

end Listening

/-- The registrations among the changes, in order, where the first one gets the given number. -/
def listenings (n : Nat) : List Change → List Listening
  | [] => []
  | .listened event l :: cs => ⟨n, event, l, cs⟩ :: listenings (n + 1) cs
  | _ :: cs => listenings n cs

/-- The registrations for an event that stand after the changes, in order. -/
def standing (n : Nat) (event : String) (cs : List Change) : List (Nat × Listener) :=
  ((listenings n cs).filter fun g => g.event = event && g.stands).map Listening.entry

theorem listenings_append (n : Nat) (cs ds : List Change) :
    listenings n (cs ++ ds) = (listenings n cs).map (Listening.after ds) ++
      listenings (n + (listenings n cs).length) ds := by
  induction cs generalizing n with
  | nil => rfl
  | cons c cs ih =>
    cases c with
    | listened event l =>
      have hshift : n + 1 + (listenings (n + 1) cs).length =
          n + ((listenings (n + 1) cs).length + 1) := by omega
      simp only [List.cons_append, listenings, ih, List.map_cons, List.length_cons, hshift]
      rfl
    | removed ids => exact ih n
    | cleared => exact ih n
    | loading => exact ih n
    | unloaded => exact ih n

theorem number_lt_of_mem_listenings {n : Nat} {cs : List Change} {g : Listening}
    (h : g ∈ listenings n cs) : g.number < n + (listenings n cs).length := by
  induction cs generalizing n with
  | nil => cases h
  | cons c cs ih =>
    cases c with
    | listened event l =>
      simp only [listenings, List.mem_cons, List.length_cons] at h ⊢
      rcases h with rfl | h
      · show n < _
        omega
      · have hlt := ih h
        omega
    | removed ids => exact ih h
    | cleared => exact ih h
    | loading => exact ih h
    | unloaded => exact ih h

/-- More changes leave what they do not undo, and add what they register and do not undo again. -/
theorem standing_append (n : Nat) (event : String) (cs ds : List Change) :
    standing n event (cs ++ ds) =
      (standing n event cs).filter (fun g => !ds.any (Change.undoes g.1 g.2)) ++
        standing (n + (listenings n cs).length) event ds := by
  have hstands : ∀ g : Listening,
      (g.after ds).stands = (g.stands && !ds.any (Change.undoes g.number g.listener)) := by
    intro g
    simp [Listening.stands, Listening.after, List.any_append, Bool.not_or]
  unfold standing
  rw [listenings_append, List.filter_append, List.map_append, List.filter_map, List.map_map,
    List.filter_map, List.filter_filter]
  congr 2
  refine List.filter_congr fun g _ => ?_
  simp only [Function.comp_apply, hstands, Listening.entry]
  rw [← Bool.and_assoc, Bool.and_comm]
  rfl

/-! ## Bus, list and history agree -/

/-- After the changes, the bus holds the registrations that stand, and the list names those among
them that scripts made and no registration by the host, not even one that was removed. -/
structure Recorded (cs : List Change) (s : Roll) : Prop where
  sound : s.bus.Sound
  next : s.bus.next = (listenings 0 cs).length
  standing : ∀ event, s.bus.registered event = standing 0 event cs
  scripts : ∀ event, ∀ g ∈ s.bus.registered event, g.2.isScript = true ↔ g.1 ∈ s.owned
  hosts : ∀ g ∈ listenings 0 cs, g.listener.isScript = false → g.number ∉ s.owned
  given : ∀ i ∈ s.owned, i < s.bus.next

namespace Recorded

theorem nil : Recorded [] ⟨.empty, []⟩ where
  sound := .empty
  next := rfl
  standing _ := rfl
  scripts _ g hg := by cases hg
  hosts g hg := by cases hg
  given i hi := by cases hi

variable {cs : List Change} {s s' : Roll}

theorem listened (h : Recorded cs s) (event : String) (l : Listener) :
    Recorded (cs ++ [.listened event l]) ((Change.listened event l).apply s) := by
  have hlistenings : listenings 0 (cs ++ [.listened event l]) =
      (listenings 0 cs).map (Listening.after [.listened event l]) ++
        [⟨s.bus.next, event, l, []⟩] := by
    rw [listenings_append, h.next, Nat.zero_add]
    rfl
  -- the number of the new registration is on the list exactly if a script made it
  have howned : ∀ i, i ∈ ((Change.listened event l).apply s).owned ↔
      i ∈ s.owned ∨ (i = s.bus.next ∧ l.isScript = true) := by
    intro i
    cases hl : l.isScript with
    | false => simp [Change.apply, hl]
    | true => simp [Change.apply, hl, or_comm]
  constructor
  · exact h.sound.listen event l
  · rw [hlistenings, List.length_append, List.length_map, ← h.next]
    rfl
  · intro e
    have hkept : (PackHost.standing 0 e cs).filter
        (fun g => !List.any [.listened event l] (Change.undoes g.1 g.2)) =
          PackHost.standing 0 e cs :=
      List.filter_eq_self.mpr fun _ _ => rfl
    rw [standing_append, hkept, ← h.standing, ← h.next, Nat.zero_add]
    show (s.bus.listen event l).registered e = _
    rw [Event.Bus.registered_listen]
    by_cases he : event = e
    · simp [PackHost.standing, listenings, Listening.stands, Listening.entry, he]
    · simp [PackHost.standing, listenings, he]
  · intro e g hg
    have hold : ∀ g ∈ s.bus.registered e,
        (g.2.isScript = true ↔ g.1 ∈ ((Change.listened event l).apply s).owned) := by
      intro g hg
      have hlt := h.sound.given e g hg
      rw [howned, h.scripts e g hg]
      constructor
      · exact .inl
      · rintro (hmem | ⟨hnext, -⟩)
        · exact hmem
        · omega
    change g ∈ (s.bus.listen event l).registered e at hg
    rw [Event.Bus.registered_listen] at hg
    split at hg
    · rcases List.mem_append.mp hg with hg | hg
      · exact hold g hg
      · rw [List.mem_singleton.mp hg, howned]
        constructor
        · exact fun hl => .inr ⟨rfl, hl⟩
        · rintro (hmem | ⟨-, hl⟩)
          · exact absurd (h.given _ hmem) (Nat.lt_irrefl _)
          · exact hl
    · exact hold g hg
  · intro g hg hhost hmem
    rw [hlistenings] at hg
    rcases List.mem_append.mp hg with hg | hg
    · obtain ⟨g₀, hg₀, rfl⟩ := List.mem_map.mp hg
      have hlt : g₀.number < 0 + (listenings 0 cs).length := number_lt_of_mem_listenings hg₀
      rcases (howned _).mp hmem with hmem | ⟨hnext, -⟩
      · exact h.hosts g₀ hg₀ hhost hmem
      · have hnumber : g₀.number = s.bus.next := hnext
        rw [hnumber, h.next] at hlt
        omega
    · rw [List.mem_singleton.mp hg] at hhost hmem
      rcases (howned _).mp hmem with hmem | ⟨-, hl⟩
      · exact absurd (h.given _ hmem) (Nat.lt_irrefl _)
      · rw [show l.isScript = false from hhost] at hl
        cases hl
  · intro i hi
    show i < s.bus.next + 1
    rcases (howned i).mp hi with hi | ⟨rfl, -⟩
    · exact Nat.lt_succ_of_lt (h.given i hi)
    · exact Nat.lt_succ_self _

/-- A change that registers nothing: it takes away what it undoes. -/
theorem undone (h : Recorded cs s) {c : Change} (hnone : ∀ n, listenings n [c] = [])
    (hsound : s'.bus.Sound) (hnext : s'.bus.next = s.bus.next)
    (hbus : ∀ event, s'.bus.registered event =
      (s.bus.registered event).filter fun g => !c.undoes g.1 g.2)
    (hscripts : ∀ event, ∀ g ∈ s'.bus.registered event, g.2.isScript = true ↔ g.1 ∈ s'.owned)
    (howned : ∀ i ∈ s'.owned, i ∈ s.owned) : Recorded (cs ++ [c]) s' := by
  have hlistenings : listenings 0 (cs ++ [c]) = (listenings 0 cs).map (Listening.after [c]) := by
    rw [listenings_append, hnone, List.append_nil]
  constructor
  · exact hsound
  · rw [hlistenings, List.length_map, hnext, h.next]
  · intro event
    have hlast : PackHost.standing (0 + (listenings 0 cs).length) event [c] = [] := by
      rw [PackHost.standing, hnone]
      rfl
    rw [standing_append, hlast, List.append_nil, ← h.standing, hbus]
    simp
  · exact hscripts
  · intro g hg hhost hmem
    rw [hlistenings] at hg
    obtain ⟨g₀, hg₀, rfl⟩ := List.mem_map.mp hg
    exact h.hosts g₀ hg₀ hhost (howned _ hmem)
  · intro i hi
    rw [hnext]
    exact h.given i (howned i hi)

/-- **Every change keeps bus, list and history in agreement.** -/
theorem step (h : Recorded cs s) (c : Change) : Recorded (cs ++ [c]) (c.apply s) := by
  cases c with
  | listened event l => exact h.listened event l
  | removed ids =>
    have hbus : ∀ event, (s.bus.remove ids).registered event =
        (s.bus.registered event).filter fun g => !ids.contains g.1 :=
      Event.Bus.registered_remove h.sound.sorted ids
    refine h.undone (fun _ => rfl) (h.sound.remove ids) rfl hbus ?_ fun _ hi => hi
    intro event g hg
    exact h.scripts event g (List.mem_filter.mp ((hbus event) ▸ hg)).1
  | cleared =>
    refine h.undone (fun _ => rfl) h.sound.clear rfl ?_ ?_ fun _ hi => hi
    · intro event
      exact (List.filter_eq_nil_iff.mpr fun _ _ => by simp [Change.undoes]).symm
    · intro event g hg
      cases hg
  | loading =>
    have hbus : ∀ event, (s.bus.remove s.owned).registered event =
        (s.bus.registered event).filter fun g => !g.2.isScript := by
      intro event
      rw [Event.Bus.registered_remove h.sound.sorted]
      refine List.filter_congr fun g hg => ?_
      rw [Bool.eq_iff_iff]
      simp [← h.scripts event g hg]
    refine h.undone (fun _ => rfl) (h.sound.remove s.owned) rfl hbus ?_ fun _ hi => by cases hi
    intro event g hg
    have hhost := (List.mem_filter.mp ((hbus event) ▸ hg)).2
    constructor
    · intro hscript
      simp [hscript] at hhost
    · intro hmem
      cases hmem
  | unloaded =>
    refine h.undone (fun _ => rfl) h.sound.clear rfl ?_ ?_ fun _ hi => by cases hi
    · intro event
      exact (List.filter_eq_nil_iff.mpr fun _ _ => by simp [Change.undoes]).symm
    · intro event g hg
      cases hg

theorem run (h : Recorded cs s) (ds : List Change) :
    Recorded (cs ++ ds) (ds.foldl (fun s c => c.apply s) s) := by
  induction ds generalizing cs s with
  | nil => rwa [List.append_nil]
  | cons c ds ih =>
    have hrest := ih (h.step c)
    rwa [List.append_assoc] at hrest

end Recorded

/-! ## Rolls in a world -/

variable {ω γ : Type}

namespace World

theorem roll_changeDesk {w : World ω γ} {d : Nat} (hd : d < w.desks.size) (e : Nat)
    {f : Desk → Desk} {c : Change} (hf : ∀ k, (f k).roll = c.apply k.roll) :
    ((w.changeDesk e f).desk d).roll =
      ((if e = d then some c else none).map fun c => c.apply (w.desk d).roll).getD
        (w.desk d).roll := by
  rw [desk_changeDesk]
  by_cases he : e = d
  · subst he
    simp [hd, hf]
  · simp [he]

theorem roll_changeDesk_of_same (w : World ω γ) (d e : Nat) {f : Desk → Desk}
    (hf : ∀ k, (f k).roll = k.roll) : ((w.changeDesk e f).desk d).roll = (w.desk d).roll := by
  refine changeDesk_induct (R := fun k k' => k'.roll = k.roll) w e ?_ hf d
  intro k
  rfl

theorem roll_say (w : World ω γ) (d e : Nat) (level : Level) (text : String) :
    ((w.say e level text).desk d).roll = (w.desk d).roll := by
  rw [desk_say]
  refine roll_changeDesk_of_same w d e ?_
  intro k
  rfl

end World

end PackHost
