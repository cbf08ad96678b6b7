import PackHost.Proofs.Manager.HostCall

/-!
# Generations of handlers

Every deed of a manager, its scripts and its host is a change of the handlers at the desk of the
manager, or leaves them alone (`Deed.roll_apply`). So bus, list and history agree after every single
deed, whatever the host does; what is left of the handlers after a load follows. The main statement
is `handlers_of_calls`.
-/

namespace PackHost

open Pack

variable {ω γ κ : Type}

/-! ## Deeds as changes -/

namespace Deed

def change? (d : Nat) : Deed ω γ κ → Option Change
  | .act (.listened e event l) => if e = d then some (.listened event l) else none
  | .act (.removed e ids) => if e = d then some (.removed ids) else none
  | .act (.cleared e) => if e = d then some .cleared else none
  | .forgot e => if e = d then some .loading else none
  | .unloaded e => if e = d then some .unloaded else none
  | _ => none

/-- What the deeds change about the handlers at a desk, in order. -/
def changes (d : Nat) (ds : List (Deed ω γ κ)) : List Change := ds.filterMap (change? d)

@[simp] theorem changes_append (d : Nat) (ds es : List (Deed ω γ κ)) :
    changes d (ds ++ es) = changes d ds ++ changes d es :=
  List.filterMap_append

end Deed

namespace Deed

theorem size_apply (a : Deed ω γ κ) (w : World ω γ) : (a.apply w).desks.size = w.desks.size := by
  cases a with
  | act a => exact (a.continues w).1
  | said d level text => exact World.size_say w d level text
  | forgot d => exact World.size_changeDesk w d _
  | gathered d kind => rfl
  | switched d location => exact World.size_changeDesk w d _
  | handed pack location text context => rfl
  | finished ended context => rfl
  | unloaded d => exact World.size_changeDesk w d _
  | aside f same => exact (same w).1

theorem size_replay (ds : List (Deed ω γ κ)) (w : World ω γ) :
    (replay ds w).desks.size = w.desks.size := by
  induction ds generalizing w with
  | nil => rfl
  | cons a ds ih => exact (ih _).trans (a.size_apply w)

/-- **What a deed does to the handlers at a desk.** -/
theorem roll_apply {w : World ω γ} {d : Nat} (hd : d < w.desks.size) (a : Deed ω γ κ) :
    ((a.apply w).desk d).roll =
      ((a.change? d).map fun c => c.apply (w.desk d).roll).getD (w.desk d).roll := by
  cases a with
  | act a =>
    cases a with
    | put s => rfl
    | made code => rfl
    | listened e event l =>
      cases l with
      | host f => exact World.roll_changeDesk hd e (c := .listened event (.host f)) fun _ => rfl
      | script f => exact World.roll_changeDesk hd e (c := .listened event (.script f)) fun _ => rfl
    | removed e ids => exact World.roll_changeDesk hd e (c := .removed ids) fun _ => rfl
    | cleared e => exact World.roll_changeDesk hd e (c := .cleared) fun _ => rfl
    | told e level message => exact World.roll_say w d e level _
    | noted entry => rfl
    | posted e event payload => rfl
    | entered e event g => rfl
    | left e event g ended =>
      show ((g.2.settle e event ended w).desk d).roll = (w.desk d).roll
      rcases g.2.settle_cases e event ended w with hs | ⟨entry, hs⟩ | ⟨text, hs⟩
      · rw [hs]
      · rw [hs]
        rfl
      · rw [hs]
        exact World.roll_say w d e .error text
    | closed e event => rfl
  | said e level text => exact World.roll_say w d e level text
  | forgot e => exact World.roll_changeDesk hd e (c := .loading) fun _ => rfl
  | gathered e kind => rfl
  | switched e location => exact World.roll_changeDesk_of_same w d e fun _ => rfl
  | handed pack location text context => rfl
  | finished ended context => rfl
  | unloaded e => exact World.roll_changeDesk hd e (c := .unloaded) fun _ => rfl
  | aside f same =>
    obtain ⟨hbus, howned⟩ := (same w).2 d
    show Roll.mk _ _ = Roll.mk _ _
    rw [← hbus, ← howned]
    rfl

theorem roll_replay {w : World ω γ} {d : Nat} (hd : d < w.desks.size) (ds : List (Deed ω γ κ)) :
    ((replay ds w).desk d).roll =
      (changes d ds).foldl (fun s c => c.apply s) (w.desk d).roll := by
  induction ds generalizing w with
  | nil => rfl
  | cons a ds ih =>
    have hsize : d < (a.apply w).desks.size := by
      rw [size_apply]
      exact hd
    rw [replay_cons, ih hsize, roll_apply hd]
    cases ha : a.change? d with
    | none => simp [changes, ha]
    | some c => simp [changes, ha]

end Deed

/-! ## What is left of the handlers -/

/-- Bus, list and history agree after any deeds that begin at an empty desk. -/
theorem recorded_replay {w : World ω γ} {d : Nat} {sink : Sink}
    (fresh : w.desks[d]? = some (.fresh sink)) (ds : List (Deed ω γ κ)) :
    Recorded (Deed.changes d ds) ((Deed.replay ds w).desk d).roll := by
  obtain ⟨seated, -⟩ := Array.getElem?_eq_some_iff.mp fresh
  have hroll : (w.desk d).roll = ⟨.empty, []⟩ := by
    rw [World.desk, fresh]
    rfl
  rw [Deed.roll_replay seated, hroll]
  exact Recorded.nil.run _

/-- The first deed of a load is to remove the handlers of earlier loads. -/
theorem exists_of_chronicle {m : Manager ω γ κ} {r : Runner ω γ} {w : World ω γ}
    {ds : List (Deed ω γ κ)} (h : m.chronicle r w = some ds) : ∃ es, ds = .forgot m.desk :: es := by
  unfold Manager.chronicle at h
  split at h
  · obtain ⟨s, -, rfl⟩ := Option.map_eq_some_iff.mp h
    exact ⟨_, rfl⟩
  · cases h

/-- **Generations of handlers.** After every single deed of a manager that began with an empty desk,
in the middle of a load or a post or between two calls of the host, its bus holds the registrations
that stand, in order, and its list names those that scripts made and none that the host made. So a
load leaves the handlers of the host that nothing has removed, and behind them those that were
registered since it began, and an unloaded manager has none. -/
theorem handlers_of_calls {plan : Plan ω γ κ} {d : Nat} {sink : Sink} {r : Runner ω γ}
    {w₀ w : World ω γ} {m : Manager ω γ κ} {calls : List (HostCall ω γ)}
    (fresh : w₀.desks[d]? = some (.fresh sink))
    (h : HostCall.performAll r calls (Manager.create plan d) w₀ = some (m, w)) :
    (∃ ds, HostCall.deedsAll r calls (Manager.create plan d) w₀ = some ds ∧
      Deed.replay ds w₀ = w ∧
      ∀ es, es <+: ds → Recorded (Deed.changes d es) ((Deed.replay es w₀).desk d).roll) ∧
    (∀ m' w', m.load r w = some (m', w') → ∃ es, m.chronicle r w = some es ∧
      Deed.replay es w = w' ∧
      ∀ event, (w'.desk d).bus.registered event =
        ((w.desk d).bus.registered event).filter (fun g =>
          !g.2.isScript && !(Deed.changes d es).any (Change.undoes g.1 g.2)) ++
            standing (w.desk d).bus.next event (Deed.changes d es)) ∧
    ((m.unload w).2.desk d).bus.table = [] := by
  obtain ⟨ds, hds, hworld, hdesk⟩ := HostCall.deedsAll_of_performAll h
  have hdesk : m.desk = d := hdesk
  have hbefore : Recorded (Deed.changes d ds) (w.desk d).roll := hworld ▸ recorded_replay fresh ds
  refine ⟨⟨ds, hds, hworld, fun es _ => recorded_replay fresh es⟩, ?_, ?_⟩
  · intro m' w' hload
    obtain ⟨es, hes, hreplay⟩ := Manager.exists_chronicle hload
    refine ⟨es, hes, hreplay, fun event => ?_⟩
    have hafter := recorded_replay fresh (ds ++ es)
    rw [Deed.replay_append, hworld, hreplay, Deed.changes_append] at hafter
    have hstanding : (w'.desk d).bus.registered event = _ := hafter.standing event
    rw [standing_append, Nat.zero_add, ← hbefore.next, ← hbefore.standing event] at hstanding
    rw [hstanding]
    -- a load begins by undoing what scripts have registered
    obtain ⟨rest, rfl⟩ := exists_of_chronicle hes
    have hloading : Deed.changes d (.forgot m.desk :: rest : List (Deed ω γ κ)) =
        .loading :: Deed.changes d rest := by
      simp [Deed.changes, Deed.change?, hdesk]
    congr 1
    refine List.filter_congr fun g _ => ?_
    rw [hloading, List.any_cons]
    cases hg : g.2.isScript <;> simp [Change.undoes, hg]
  · have seated : d < w.desks.size := by
      rw [← hworld, Deed.size_replay]
      exact (Array.getElem?_eq_some_iff.mp fresh).1
    rw [Manager.unload, World.desk_changeDesk, if_pos ⟨hdesk, hdesk ▸ seated⟩]
    rfl

/-- A load, a handler registered through `onEvent` later on, and one registered by the host. -/
def Manager.Sample.calls : List (HostCall Unit Empty) :=
  [.load,
    .run (.call ⟨"onEvent", some 2, 2⟩ [.text "tick", .function ⟨"late", none, 0⟩] fun _ =>
      .done ()),
    .run (.bus 0 (.listen "tick" ⟨"host", none, 0⟩) fun _ => .done ())]

/-- Of the two handlers that are there before a second load, the one by the host is left. -/
theorem handlers_of_calls_sample :
    ∃ m w m' w', HostCall.performAll .plain Manager.Sample.calls
        (Manager.create Manager.Sample.plan 0) Manager.Sample.world = some (m, w) ∧
      (((w.desk 0).bus.registered "tick").map fun g => g.2.target.name) = ["late", "host"] ∧
      m.load .plain w = some (m', w') ∧ m.chronicle .plain w ≠ none ∧
      (((w'.desk 0).bus.registered "tick").map fun g => g.2.target.name) = ["host"] := by
  have hsome : ((HostCall.performAll .plain Manager.Sample.calls
      (Manager.create Manager.Sample.plan 0) Manager.Sample.world).bind fun s =>
        (s.1.load .plain s.2).map fun s' =>
          (((s.2.desk 0).bus.registered "tick").map fun g => g.2.target.name,
            ((s'.2.desk 0).bus.registered "tick").map fun g => g.2.target.name)) =
      some (["late", "host"], ["host"]) := by decide +kernel
  obtain ⟨⟨m, w⟩, hcalls, hsome⟩ := Option.bind_eq_some_iff.mp hsome
  obtain ⟨⟨m', w'⟩, hload, hnames⟩ := Option.map_eq_some_iff.mp hsome
  have fresh : Manager.Sample.world.desks[0]? = some (.fresh .kept) := rfl
  obtain ⟨-, hloads, -⟩ := handlers_of_calls fresh hcalls
  obtain ⟨es, hes, -, -⟩ := hloads m' w' hload
  refine ⟨m, w, m', w', hcalls, congrArg Prod.fst hnames, hload, ?_, congrArg Prod.snd hnames⟩
  rw [hes]
  exact Option.some_ne_none es

end PackHost
