import PackHost.Proofs.Event.Log
import PackHost.Proofs.Manager.Generation

/-!
# Desks in order

However a host uses a manager, the list at its desk names the handlers that scripts registered and
no others (`tended_of_calls`). So what the next load spares of the handlers (`Roll.Spares`) are
handlers of the host: `World.Tended.spares`.
-/

namespace PackHost

open Event

variable {ω γ κ : Type}

/-! ## What the next load keeps of the handlers -/

/-- Whether the change is one that loads and scripts make, which leaves the handlers of the host
alone. -/
def Change.sparesHost : Change → Bool
  | .loading => true
  | .listened _ (.script _) => true
  | _ => false

/-- The registrations that the next load spares, since no script made them. -/
def Roll.Spares (es : List (Entry Listener)) (s : Roll) : Prop :=
  ∃ log, s.bus.Mirrors log ∧ (log.entries.filter fun e => !s.owned.contains e.number) = es

namespace Roll.Spares

variable {es : List (Entry Listener)} {s : Roll}

theorem of_table_eq_nil (h : s.bus.table = []) : s.Spares [] :=
  ⟨_, .of_table_eq_nil h, rfl⟩

/-- A handler that a script registers is not spared by the next load. -/
theorem listened (h : s.Spares es) (event : String) (f : Function) :
    ((Change.listened event (.script f)).apply s).Spares es := by
  obtain ⟨log, hlog, rfl⟩ := h
  refine ⟨_, hlog.listen event (.script f), ?_⟩
  have hnext : log.given.length = s.bus.next := hlog.length_given
  have hold : ∀ e ∈ log.entries, (!(s.bus.next :: s.owned).contains e.number) =
      !s.owned.contains e.number := by
    intro e he
    have hne : e.number ≠ s.bus.next := Nat.ne_of_lt (hlog.number_lt he)
    simp [hne]
  show (log.entries ++ [_]).filter (fun e : Entry Listener =>
    !(s.bus.next :: s.owned).contains e.number) = _
  rw [List.filter_append, List.filter_congr hold]
  simp [hnext]

theorem loading (h : s.Spares es) : (Change.loading.apply s).Spares es := by
  obtain ⟨log, hlog, rfl⟩ := h
  refine ⟨_, hlog.remove s.owned, ?_⟩
  show (log.remove s.owned).entries.filter (fun e => !([] : List Nat).contains e.number) = _
  exact List.filter_eq_self.mpr fun _ _ => rfl

/-- As long as all changes spare the handlers of the host, the next load keeps what the last one
kept. -/
theorem run (h : s.Spares es) {cs : List Change} (hcs : ∀ c ∈ cs, c.sparesHost = true) :
    (cs.foldl (fun s c => c.apply s) s).Spares es := by
  induction cs generalizing s with
  | nil => exact h
  | cons c cs ih =>
    obtain ⟨hc, hrest⟩ := List.forall_mem_cons.mp hcs
    match c, hc with
    | .loading, _ => exact ih h.loading hrest
    | .listened event (.script f), _ => exact ih (h.listened event f) hrest

end Roll.Spares

/-- Whatever changes a roll, its registrations are numbered as those of a flat log. -/
theorem Change.mirrors {s : Roll} {log : Log Listener} (h : s.bus.Mirrors log) (c : Change) :
    ∃ log', (c.apply s).bus.Mirrors log' := by
  cases c with
  | listened event l => exact ⟨_, h.listen event l⟩
  | removed ids => exact ⟨_, h.remove ids⟩
  | cleared => exact ⟨_, h.clear⟩
  | loading => exact ⟨_, h.remove s.owned⟩
  | unloaded => exact ⟨_, h.clear⟩

theorem exists_mirrors_replay {w : World ω γ} {d : Nat} {sink : Sink}
    (fresh : w.desks[d]? = some (.fresh sink)) (ds : List (Deed ω γ κ)) :
    ∃ log, ((Deed.replay ds w).desk d).bus.Mirrors log := by
  obtain ⟨seated, -⟩ := Array.getElem?_eq_some_iff.mp fresh
  have hrun : ∀ (cs : List Change) (s : Roll), (∃ log, s.bus.Mirrors log) →
      ∃ log, (cs.foldl (fun s c => c.apply s) s).bus.Mirrors log := by
    intro cs
    induction cs with
    | nil => exact fun _ h => h
    | cons c cs ih => exact fun s ⟨_, h⟩ => ih _ (c.mirrors h)
  have hroll : (w.desk d).roll = ⟨.empty, []⟩ := by
    rw [World.desk, fresh]
    rfl
  have hbus := hrun (Deed.changes d ds) ⟨.empty, []⟩ ⟨_, .empty⟩
  rwa [← hroll, ← Deed.roll_replay seated] at hbus

/-! ## Desks in order -/

/-- There is such a desk, its bus holds what a flat log holds, and its list names the handlers that
scripts registered and no others. -/
structure World.Tended (w : World ω γ) (d : Nat) : Prop where
  seated : d < w.desks.size
  mirrors : ∃ log, (w.desk d).bus.Mirrors log
  owned : ∀ event, ∀ g ∈ (w.desk d).bus.registered event,
    (g.2.isScript = true ↔ g.1 ∈ (w.desk d).owned)

/-- **However a host uses a manager that began at an empty desk, the desk is in order.** -/
theorem tended_of_calls {plan : Plan ω γ κ} {d : Nat} {sink : Sink} {r : Runner ω γ}
    {w₀ w : World ω γ} {m : Manager ω γ κ} {calls : List (HostCall ω γ)}
    (fresh : w₀.desks[d]? = some (.fresh sink))
    (h : HostCall.performAll r calls (Manager.create plan d) w₀ = some (m, w)) :
    w.Tended m.desk := by
  obtain ⟨ds, -, rfl, hdesk⟩ := HostCall.deedsAll_of_performAll h
  obtain rfl : m.desk = d := hdesk
  refine ⟨?_, exists_mirrors_replay fresh ds, (recorded_replay fresh ds).scripts⟩
  rw [Deed.size_replay]
  exact (Array.getElem?_eq_some_iff.mp fresh).1

/-- What the next load spares are handlers of the host, since the list of the desk names those of
scripts. -/
theorem World.Tended.spares {w : World ω γ} {d : Nat} (h : w.Tended d) {H : Nat → Prop}
    (handlers : ∀ event, ∀ g ∈ (w.desk d).bus.registered event,
      g.2.isScript = false → H g.2.target.id) :
    ∃ kept, (w.desk d).roll.Spares kept ∧ ∀ e ∈ kept, ∃ f, e.handler = .host f ∧ H f.id := by
  obtain ⟨log, hlog⟩ := h.mirrors
  refine ⟨_, ⟨log, hlog, rfl⟩, fun e he => ?_⟩
  obtain ⟨hmem, howned⟩ := List.mem_filter.mp he
  have hregistered : e.pair ∈ (w.desk d).bus.registered e.event := hlog.mem_entries_iff.mp hmem
  have hscript : e.handler.isScript = false := by
    have hiff : e.handler.isScript = true ↔ e.number ∈ (w.desk d).roll.owned :=
      h.owned e.event e.pair hregistered
    have hnot : e.number ∉ (w.desk d).roll.owned := by simpa using howned
    rw [← hiff] at hnot
    simpa using hnot
  have hid := handlers e.event e.pair hregistered hscript
  cases hhandler : e.handler with
  | host f =>
    rw [Entry.pair, hhandler] at hid
    exact ⟨f, rfl, hid⟩
  | script f =>
    rw [hhandler] at hscript
    cases hscript

end PackHost
