import PackHost.Proofs.Event.Log
import PackHost.Proofs.World.Dispatch

/-!
# The flat log of a desk

`register` keeps a flat log of the registrations at a desk while acts happen, those of handlers in
the middle of a post included. The bus of the desk holds what the log holds after every single act
(`mirrors_foldl`), so the log answers every request. The main statement is `bus_mirrors_register`.
-/

namespace PackHost

open Event

variable {ω γ : Type}

def Act.register (d : Nat) : Act ω γ → Log Listener → Log Listener
  | .listened e event l, log => if e = d then log.listen event l else log
  | .removed e ids, log => if e = d then log.remove ids else log
  | .cleared e, log => if e = d then log.clear else log
  | _, log => log

/-- The flat log of a desk after acts that begin at an empty bus. -/
def register (d : Nat) (as : List (Act ω γ)) : Log Listener :=
  as.foldl (fun log a => a.register d log) .empty

theorem register_append_singleton (d : Nat) (as : List (Act ω γ)) (a : Act ω γ) :
    register d (as ++ [a]) = a.register d (register d as) := by
  rw [register, List.foldl_append]
  rfl

/-! ## Bus and log stay alike -/

theorem World.mirrors_changeDesk {w : World ω γ} {d : Nat} {log log' : Log Listener}
    (seated : d < w.desks.size) (e : Nat) {f : Desk → Desk}
    (hf : ∀ k : Desk, k.bus.Mirrors log → (f k).bus.Mirrors log')
    (h : (w.desk d).bus.Mirrors log) :
    ((w.changeDesk e f).desk d).bus.Mirrors (if e = d then log' else log) := by
  rw [desk_changeDesk]
  by_cases he : e = d
  · rw [if_pos ⟨he, he ▸ seated⟩, if_pos he]
    exact hf _ h
  · rw [if_neg fun hseat => he hseat.1, if_neg he]
    exact h

theorem World.mirrors_say {w : World ω γ} {d : Nat} {log : Log Listener} (e : Nat) (level : Level)
    (text : String) (h : (w.desk d).bus.Mirrors log) :
    ((w.say e level text).desk d).bus.Mirrors log := by
  rw [desk_say]
  refine changeDesk_induct (R := fun k k' => k.bus.Mirrors log → k'.bus.Mirrors log) w e
    (fun _ hk => hk) ?_ d h
  intro k hk
  exact hk

/-- **Every act keeps the bus of a desk and its log alike.** -/
theorem Act.mirrors (a : Act ω γ) {w : World ω γ} {d : Nat} {log : Log Listener}
    (seated : d < w.desks.size) (h : (w.desk d).bus.Mirrors log) :
    ((a.apply w).desk d).bus.Mirrors (a.register d log) := by
  cases a with
  | put s => exact h
  | made code => exact h
  | listened e event l =>
    cases l with
    | host f => exact World.mirrors_changeDesk seated e (fun _ hk => hk.listen event _) h
    | script f => exact World.mirrors_changeDesk seated e (fun _ hk => hk.listen event _) h
  | removed e ids => exact World.mirrors_changeDesk seated e (fun _ hk => hk.remove ids) h
  | cleared e => exact World.mirrors_changeDesk seated e (fun _ hk => hk.clear) h
  | told e level message => exact World.mirrors_say e level _ h
  | noted entry => exact h
  | posted e event payload => exact h
  | entered e event g => exact h
  | left e event g ended =>
    show ((g.2.settle e event ended w).desk d).bus.Mirrors log
    rcases g.2.settle_cases e event ended w with hs | ⟨entry, hs⟩ | ⟨text, hs⟩
    · rwa [hs]
    · rw [hs]
      exact h
    · rw [hs]
      exact World.mirrors_say e .error text h
  | closed e event => exact h

theorem mirrors_foldl (as : List (Act ω γ)) {w : World ω γ} {d : Nat} {log : Log Listener}
    (seated : d < w.desks.size) (h : (w.desk d).bus.Mirrors log) :
    ((replay as w).desk d).bus.Mirrors (as.foldl (fun log a => a.register d log) log) := by
  induction as generalizing w log with
  | nil => exact h
  | cons a as ih =>
    refine ih ?_ (a.mirrors seated h)
    rw [(a.continues w).1]
    exact seated

/-! ## What is gone stays away -/

def Gone (log : Log Listener) (i : Nat) : Prop :=
  i < log.given.length ∧ i ∉ log.entries.map Entry.number

theorem Gone.step {log : Log Listener} {i : Nat} (h : Gone log i) (d : Nat) (a : Act ω γ) :
    Gone (a.register d log) i := by
  obtain ⟨hgiven, hgone⟩ := h
  -- fewer registrations are in force, or one more with a number of its own
  have hfilter : ∀ keep : Entry Listener → Bool,
      i ∉ (log.entries.filter keep).map Entry.number := by
    intro keep hmem
    obtain ⟨e, he, rfl⟩ := List.mem_map.mp hmem
    exact hgone (List.mem_map_of_mem (List.mem_filter.mp he).1)
  cases a with
  | listened e event l =>
    simp only [Act.register]
    split
    · refine ⟨?_, ?_⟩
      · simp only [Log.listen, List.length_append, List.length_singleton]
        omega
      · simp only [Log.listen, List.map_append, List.mem_append, List.map_cons, List.map_nil,
          List.mem_singleton, not_or]
        exact ⟨hgone, Nat.ne_of_lt hgiven⟩
    · exact ⟨hgiven, hgone⟩
  | removed e ids =>
    simp only [Act.register]
    split
    · exact ⟨hgiven, hfilter _⟩
    · exact ⟨hgiven, hgone⟩
  | cleared e =>
    simp only [Act.register]
    split
    · exact ⟨hgiven, fun hmem => by cases hmem⟩
    · exact ⟨hgiven, hgone⟩
  | _ => exact ⟨hgiven, hgone⟩

theorem Gone.run {log : Log Listener} {i : Nat} (h : Gone log i) (d : Nat) (as : List (Act ω γ)) :
    Gone (as.foldl (fun log a => a.register d log) log) i := by
  induction as generalizing log with
  | nil => exact h
  | cons a as ih => exact ih (h.step d a)

/-! ## The main statement -/

/-- **A bus is its flat log.** Whatever runs in a world is a sequence of acts, and after every act,
be it one of a handler in the middle of a post, the bus of a desk that began empty is given by one
list of the registrations in force: a new registration goes to its end under a number that was never
given, removing takes out those with one of the numbers and answers how many they were, clearing
takes out all, and no number that is gone ever comes back. The handlers and the count of a name are
those of its registrations in the list, the names are theirs, each once and in ascending order, and
none is kept without handlers. -/
theorem bus_mirrors_register (r : Runner ω γ) {w : World ω γ} {d : Nat}
    (seated : d < w.desks.size) (fresh : (w.desk d).bus = .empty) :
    (∀ (α : Type) (p : Program ω γ α) a w', r.run p w = some (a, w') →
      ∃ as, Journal.run r.report p w = some (a, as) ∧ replay as w = w') ∧
    ∀ as : List (Act ω γ),
      let w' := replay as w
      let bus := (w'.desk d).bus
      let log := register d as
      (∀ event, bus.handlers event = (log.named event).map Entry.handler) ∧
      (∀ event, bus.count event = (log.named event).length) ∧
      (bus.events.Pairwise (· < ·) ∧
        ∀ event, event ∈ bus.events ↔ ∃ e ∈ log.entries, e.event = event) ∧
      (bus.isEmpty = true ↔ log.entries = []) ∧
      (∀ t ∈ bus.table, t.2 ≠ []) ∧
      bus.size = log.entries.length ∧
      (bus.next ∉ log.given ∧ ∀ event l, register d (as ++ [.listened d event l]) =
        ⟨log.given ++ [bus.next], log.entries ++ [⟨bus.next, event, l⟩]⟩) ∧
      (∀ event f, Journal.answer r.report d (.listen event f) w' =
        some (bus.next, [.listened d event (.host f)])) ∧
      (∀ ids, register d (as ++ [.removed d ids]) =
          ⟨log.given, log.entries.filter fun e => !ids.contains e.number⟩ ∧
        Journal.answer r.report d (.remove ids) w' =
          some ((log.entries.filter fun e => ids.contains e.number).length, [.removed d ids])) ∧
      (register d (as ++ [.cleared d]) = ⟨log.given, []⟩ ∧
        Journal.answer r.report d .clear w' = some (0, [.cleared d])) ∧
      (∀ event, Journal.answer r.report d (.count event) w' =
        some ((log.named event).length, [])) ∧
      (∀ event payload n bs, Journal.answer r.report d (.post event payload) w' = some (n, bs) →
        n = (log.named event).length) ∧
      ∀ i ∈ log.given, (∀ e ∈ log.entries, e.number ≠ i) →
        ∀ bs, ∀ e ∈ (register d (as ++ bs)).entries, e.number ≠ i := by
  constructor
  · intro α p a w' h
    rw [← r.forget_run] at h
    obtain ⟨⟨_, as⟩, has, h⟩ := Option.map_eq_some_iff.mp h
    cases h
    exact ⟨as, has, rfl⟩
  · intro as w' bus log
    have hmirrors : bus.Mirrors log := mirrors_foldl as seated (fresh ▸ .empty)
    refine ⟨hmirrors.handlers, hmirrors.count,
      ⟨hmirrors.ascending_events, fun event => hmirrors.mem_events_iff⟩, hmirrors.isEmpty_iff,
      hmirrors.kept, hmirrors.size, ⟨hmirrors.next_not_mem, fun event l => ?_⟩, fun _ _ => rfl,
      fun ids => ⟨?_, ?_⟩, ⟨?_, rfl⟩, fun event => ?_, fun event payload n bs h => ?_, ?_⟩
    · rw [register_append_singleton, Act.register, if_pos rfl, Log.listen, hmirrors.length_given]
    · rw [register_append_singleton, Act.register, if_pos rfl]
      rfl
    · show some (bus.size - (bus.remove ids).size, _) = _
      rw [hmirrors.size_sub_size_remove]
      rfl
    · rw [register_append_singleton, Act.register, if_pos rfl]
      rfl
    · show some (bus.count event, _) = _
      rw [hmirrors.count]
    · obtain ⟨rfl, -⟩ := Journal.post_eq_some (Journal.isOrderly_callAt r.invoke r.depth) h
      exact hmirrors.count event
    · intro i hi hgone bs e he hei
      have hgiven : i < log.given.length := by
        rw [hmirrors.given, Bus.issued, List.mem_range] at hi
        rwa [hmirrors.length_given]
      have habsent : i ∉ log.entries.map Entry.number := by
        intro hmem
        obtain ⟨e, he, hnumber⟩ := List.mem_map.mp hmem
        exact hgone e he hnumber
      have hlater := (Gone.run ⟨hgiven, habsent⟩ d bs).2
      rw [register, List.foldl_append] at he
      exact hlater (List.mem_map.mpr ⟨e, he, hei⟩)

/-- A world with two functions: one clears the bus and registers itself again, the other one removes
registrations, some of them twice and one that was never made. -/
def World.renewing : World Unit Empty :=
  let renews : Native Unit Empty := fun _ =>
    .bus 0 .clear fun _ => .bus 0 (.listen "tick" ⟨"renews", none, 0⟩) fun _ => .done (.done .unit)
  let prunes : Native Unit Empty := fun _ =>
    .bus 0 (.remove [1, 2, 2, 9]) fun n => .done (.done (.int (Int64.ofNat n)))
  (((World.fresh ()).addDesk .kept).define (.native renews)).define (.native prunes)

/-- Three registrations, two posts the handlers of which edit the bus, and a removal; what all
requests were answered. -/
def World.renewal : Program Unit Empty (List Nat) :=
  .bus 0 (.listen "tick" ⟨"renews", none, 0⟩) fun a =>
    .bus 0 (.listen "tock" ⟨"prunes", none, 1⟩) fun b =>
      .bus 0 (.listen "tick" ⟨"renews", none, 0⟩) fun c =>
        .bus 0 (.post "tock" .unit) fun k => .bus 0 (.post "tick" .unit) fun l =>
          .bus 0 (.remove [0, 3, 3]) fun m => .bus 0 (.listen "tick" ⟨"prunes", none, 1⟩) fun n =>
            .done [a, b, c, k, l, m, n]

/-- Handlers that edit the bus while it posts leave what the log says: of five registrations the
last one. -/
theorem bus_mirrors_register_renewal :
    ∃ w' as, Runner.plain.run World.renewal World.renewing = some ([0, 1, 2, 1, 1, 1, 4], w') ∧
      replay as World.renewing = w' ∧
      (register 0 as).given = [0, 1, 2, 3, 4] ∧ (register 0 as).entries.map Entry.number = [4] ∧
      (w'.desk 0).bus.size = (register 0 as).entries.length ∧
      ∀ event, (w'.desk 0).bus.count event = ((register 0 as).named event).length := by
  have seated : 0 < World.renewing.desks.size := by decide
  obtain ⟨hruns, hmoments⟩ :=
    bus_mirrors_register Runner.plain (w := World.renewing) seated rfl
  have hlog : (Journal.run Runner.plain.report World.renewal World.renewing).map (fun s =>
      (s.1, (register 0 s.2).given, (register 0 s.2).entries.map Entry.number)) =
        some ([0, 1, 2, 1, 1, 1, 4], [0, 1, 2, 3, 4], [4]) := by decide +kernel
  obtain ⟨⟨answers, as⟩, hjournal, hlog⟩ := Option.map_eq_some_iff.mp hlog
  injection hlog with hanswers hlog
  injection hlog with hgiven hentries
  have hrun : Runner.plain.run World.renewal World.renewing =
      some (answers, replay as World.renewing) := by
    rw [← Runner.forget_run, Journal.forget, hjournal]
    rfl
  obtain ⟨as', hsame, hworld⟩ := hruns _ _ _ _ hrun
  rw [hjournal] at hsame
  cases hsame
  obtain ⟨-, hcount, -, -, -, hsize, -⟩ := hmoments as
  cases hanswers
  exact ⟨_, as, hrun, hworld, hgiven, hentries, hsize, hcount⟩

end PackHost
