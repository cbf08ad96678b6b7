import PackHost.Manager.Load
import PackHost.Proofs.Script.Propagation

/-!
# Who is to blame for a failure

A failure comes out of a script in the class in which a function of the host returned it, however
many functions of scripts and of the host it passes on the way (`class_of_failure`). What is no
failure of the host is one of the script.
-/

namespace PackHost

theorem world_reportFailure {ω γ : Type} {p : Manager.Pass ω γ} {kind : ScriptKind} {d : Nat}
    {location : String} {f : UnitFailure} : (p.reportFailure kind d location f).world =
      let said := p.world.say d .error
        ("Error loading " ++ kind.name ++ " script " ++ (location ++ ": " ++ f.message))
      if f.isScriptLevel then said else said.say d .error f.outline.block := by
  unfold Manager.Pass.reportFailure
  cases f.isScriptLevel <;> rfl

namespace Language

variable {L : Language} {ω γ : Type}

/-! ## Classes -/

def Upshot.isScriptLevel : Upshot → Bool
  | .returned _ _ (.failed e) => e.isScriptLevel
  | _ => true

theorem isScriptLevel_failureOf {e : EvalError L.Datum} (h : ∀ f m, e.innermost ≠ .system f m) :
    (L.failureOf e).isScriptLevel = true := by
  unfold failureOf
  cases hinner : e.innermost with
  | system f m => exact absurd hinner (h f m)
  | _ => rfl

theorem isScriptLevel_failureOf_system {e : EvalError L.Datum} {f m : String}
    (h : e.innermost = .system f m) : (L.failureOf e).isScriptLevel = false := by
  unfold failureOf
  rw [h]
  rfl

/-- The host sees an error of a call in the class of the call. -/
theorem Tells.isScriptLevel {name : String} {u : Upshot} {e : EvalError L.Datum}
    (h : L.Tells (u.response L name) e.innermost) :
    (L.failureOf e).isScriptLevel = u.isScriptLevel := by
  cases u with
  | returned f vs ended =>
    cases ended with
    | done v => cases h
    | crashed m => cases h
    | failed g =>
      rw [Upshot.isScriptLevel]
      cases hlevel : g.isScriptLevel with
      | true =>
        simp only [Upshot.response, answerOf, hlevel, if_true] at h
        refine isScriptLevel_failureOf fun f m heq => ?_
        rw [heq] at h
        cases h
      | false =>
        simp only [Upshot.response, answerOf, hlevel, Bool.false_eq_true, if_false] at h
        cases hinner : e.innermost with
        | system f m => exact isScriptLevel_failureOf_system hinner
        | _ =>
          rw [hinner] at h
          cases h
  | own => cases h
  | _ =>
    refine isScriptLevel_failureOf fun f m heq => ?_
    rw [heq] at h
    cases h

/-- Only failures of the host become errors of the system. -/
theorem Upshot.exists_failed {name : String} {u : Upshot} {function message : String} {taken : Bool}
    (h : u.response L name = .answered (.system function message) taken) :
    ∃ f vs e, u = .returned f vs (.failed e) ∧ e.isScriptLevel = false := by
  cases u with
  | returned f vs ended =>
    cases ended with
    | done v => cases h
    | crashed m => cases h
    | failed e =>
      cases hlevel : e.isScriptLevel with
      | false => exact ⟨f, vs, e, rfl, hlevel⟩
      | true =>
        simp only [Upshot.response, answerOf, hlevel, if_true] at h
        cases h
  | _ => cases h

/-! ## The end of a run -/

/-- The failure is what a function of the host returned, and nothing was caught since. -/
def Escaped (e : Failure) (es : List (Entry L)) : Prop :=
  ∃ name args f vs, Entry.Uncaught (.call name args (.returned f vs (.failed e))) es

theorem fails_returned (name : String) (f : Function) (vs : List Value) (e : Failure) :
    Fails (L := L) ((Upshot.returned f vs (.failed e)).response L name) := by
  have hresponse : (Upshot.returned f vs (.failed e)).response L name =
      .answered (if e.isScriptLevel then .raised e.message else .system f.name e.message) true := rfl
  rw [hresponse]
  cases e.isScriptLevel with
  | true => exact ⟨_, .raised e.message true none⟩
  | false => exact ⟨_, .system f.name e.message true⟩

namespace Carries

variable {α : Type} {es : List (Entry L)} {x : Ended L.Datum α}

/-- A run ends with the failure of the call that was not caught, in the class of the call. -/
theorem exists_failure (h : L.Carries (es.map Entry.happening) x) {name : String}
    {args : List L.Datum} {u : Upshot} (hfails : Fails (u.response L name))
    (hu : Entry.Uncaught (.call name args u) es) :
    ∃ g, L.outcomeOf x = .failed g ∧ g.isScriptLevel = u.isScriptLevel := by
  obtain ⟨e, rfl, htells⟩ := h.outward _ hfails hu.happening
  exact ⟨L.failureOf e, rfl, htells.isScriptLevel⟩

theorem exists_of_escaped (h : L.Carries (es.map Entry.happening) x) {e : Failure}
    (he : Escaped e es) : ∃ g, L.outcomeOf x = .failed g ∧ g.isScriptLevel = e.isScriptLevel := by
  obtain ⟨name, args, f, vs, hu⟩ := he
  exact h.exists_failure (fails_returned name f vs e) hu

/-- Where every failure of the host was caught the script is to blame. -/
theorem isScriptLevel (h : L.Carries (es.map Entry.happening) x)
    (hnone : ∀ e : Failure, ¬ Escaped e es) {g : Failure} (hg : L.outcomeOf x = .failed g) :
    g.isScriptLevel = true := by
  cases x with
  | value a => cases hg
  | crashed m => cases hg
  | failed e =>
    cases hg
    refine isScriptLevel_failureOf fun function message hinner => ?_
    obtain ⟨taken, huncaught⟩ := h.inward e function message rfl hinner
    obtain ⟨name, args, u, hu, hresponse⟩ := Entry.exists_of_uncaught huncaught
    obtain ⟨f, vs, e', rfl, -⟩ := Upshot.exists_failed hresponse
    exact hnone e' ⟨name, args, f, vs, hu⟩

end Carries

/-! ## Runs of scripts and of their functions -/

variable {p : Port L ω γ}

theorem Context.carries_recorded (hp : L.Propagates) (c : Context L) (location : String)
    (t : L.Tree) : (c.recorded p location t).Ends fun x =>
      ∃ r : Ended L.Datum Unit, L.Carries (x.1.map Entry.happening) r ∧ x.2.1 = L.outcomeOf r := by
  refine (Program.ends_true _).bind fun slot _ => ?_
  exact (p.ends_record _ (hp.run _ _ _ _)).bind fun x hx => ⟨x.2.1, hx, rfl⟩

theorem Callback.carries_recorded (hp : L.Propagates) (c : L.Callback) (t : L.Tree)
    (args : List Value) : (c.recorded p t args).Ends fun x =>
      ∃ r : Ended L.Datum L.Datum, L.Carries (x.1.map Entry.happening) r ∧
        ∀ e, r = .failed e → x.2 = .failed (L.failureOf e) := by
  refine (p.ends_record _ (hp.call _ _ _ _)).bind fun x hx => ?_
  obtain ⟨es, r⟩ := x
  cases r with
  | value d =>
    refine (Program.ends_true _).bind fun o _ => ⟨.value d, hx, fun e he => ?_⟩
    cases he
  | failed e =>
    refine ⟨.failed e, hx, fun e' he => ?_⟩
    cases he
    rfl
  | crashed m =>
    refine ⟨.crashed m, hx, fun e he => ?_⟩
    cases he

variable (p) in
/-- A function of the host may return the second failure because the first one was returned: each
function of the host on the way called a function of a script that did not catch what it got, and
passes on what came out of it. -/
inductive Relayed (e : Failure) : Failure → Prop
  | returned : Relayed e e
  | callback {c : L.Callback} {t : L.Tree} {args : List Value} {es : List (Entry L)}
      {e' g : Failure} : Relayed e e' → (c.recorded p t args).CanEnd (es, .failed g) →
      Escaped e' es → Relayed e g

/-- Nothing on the way changes the class of a failure. -/
theorem Relayed.isScriptLevel (hp : L.Propagates) {e g : Failure} (h : Relayed p e g) :
    g.isScriptLevel = e.isScriptLevel := by
  induction h with
  | returned => rfl
  | @callback c t args es e' g _ hrun hescaped ih =>
    obtain ⟨r, hcarries, hfailed⟩ := (c.carries_recorded hp t args).of_canEnd hrun
    obtain ⟨g', hg', hlevel⟩ := hcarries.exists_of_escaped hescaped
    cases r with
    | value d => cases hg'
    | crashed m => cases hg'
    | failed err =>
      cases hg'
      cases hfailed err rfl
      exact hlevel.trans ih

/-- **A failure keeps its class on its way out of scripts.** A text that is no script fails at
script level. If a script does run, then for every failure that a function of the host returned and
that nothing caught, wherever it comes from, the run fails, in the class of the failure, so that
this class decides whether the failure is reported in full. If every failure of a function of the
host was caught and the run fails, then it fails at script level. Records say what runs of scripts
and calls of their functions do. -/
theorem class_of_failure (hp : L.Propagates) (c : Context L) (location text : String) :
    (∀ f, L.compile c.kit.off text = .error f → ∃ g,
      c.run p location text = .done (.failed g, c) ∧ g.isScriptLevel = true) ∧
    ∀ t, L.compile c.kit.off text = .ok t →
      c.run p location text = (c.recorded p location t).bind (fun x => .done x.2) ∧
      ∀ es outcome c', (c.recorded p location t).CanEnd (es, outcome, c') →
        (∀ e e', Relayed p e e' → Escaped e' es →
          ∃ g, outcome = .failed g ∧ g.isScriptLevel = e.isScriptLevel ∧
            ∀ (pass : Manager.Pass ω γ) (kind : ScriptKind) (d : Nat) (unit : String),
              (pass.reportFailure kind d unit (.script g)).world =
                let said := pass.world.say d .error
                  ("Error loading " ++ kind.name ++ " script " ++ (unit ++ ": " ++ g.message))
                if e.isScriptLevel then said
                else said.say d .error (UnitFailure.script g).outline.block) ∧
        ((∀ e, ¬ Escaped e es) → ∀ g, outcome = .failed g → g.isScriptLevel = true) ∧
        ∀ (k : L.Callback) t' args, k.tree = some t' → args.length ≤ Callback.mostArguments →
          k.perform p args = (k.recorded p t' args).bind fun x => .done x.2 := by
  refine ⟨fun f hread => ⟨.compile f.message f.line, ?_, rfl⟩,
    fun t hread => ⟨Context.run_eq_recorded p hread, fun es outcome c' hends => ?_⟩⟩
  · rw [Context.run, hread]
  obtain ⟨r, hcarries, houtcome⟩ := (c.carries_recorded hp location t).of_canEnd hends
  dsimp only at hcarries houtcome
  subst houtcome
  refine ⟨fun e e' hrelayed hescaped => ?_, fun hnone g => hcarries.isScriptLevel hnone,
    fun _ _ _ => Callback.perform_eq_recorded p⟩
  obtain ⟨g, hg, hlevel⟩ := hcarries.exists_of_escaped hescaped
  have hclass : g.isScriptLevel = e.isScriptLevel := hlevel.trans (hrelayed.isScriptLevel hp)
  refine ⟨g, hg, hclass, fun pass kind d unit => ?_⟩
  rw [world_reportFailure, ← hclass]
  rfl

namespace Sample

open Script (language)

def full : Failure := .host "disk full"

def write : Native Script.Heap Script.Callback := fun _ => .done (.failed full)

/-- A function of the host that calls its argument and passes on what comes of it. -/
def relay : Native Script.Heap Script.Callback
  | .function f :: _ => .forward f []
  | _ => .done (.done .unit)

def relaying : Context language := .ofSpec language .default ⟨"pack",
  [("relay", ⟨.function ⟨"relay", some 1, 0⟩, true⟩),
    ("write", ⟨.function ⟨"write", some 0, 1⟩, true⟩)], .standard⟩

def relayWorld : World Script.Heap Script.Callback :=
  { (World.fresh Script.Heap.empty : World Script.Heap Script.Callback) with
    functions := #[.native relay, .native write] }

def saving : String := "fn save() { write() } relay(Fn(\"save\"))"

def save (t : Script.Tree) : Script.Callback :=
  ⟨relaying.kit, some (.merge relaying.shared t), some 0, ⟨"save", none, []⟩⟩

def relayed : Failure := .host ("write: " ++ full.message)

def lastFailure? : List (Entry language) → Option Failure
  | .call _ _ (.returned _ _ (.failed e)) :: _ => some e
  | _ => none

def failure? : Outcome Value → Option Failure
  | .failed e => some e
  | _ => none

theorem eq_failed_of_failure? {o : Outcome Value} {e : Failure} (h : failure? o = some e) :
    o = .failed e := by
  cases o <;> cases h
  rfl

theorem escaped_of_lastFailure? {es : List (Entry language)} {e : Failure}
    (h : lastFailure? es = some e) : Escaped e es := by
  unfold lastFailure? at h
  split at h
  · cases h
    exact ⟨_, _, _, _, [], _, rfl, List.not_mem_nil⟩
  · cases h

theorem exists_saving : ∃ t x w y w', Script.compile relaying.kit.off saving = .ok t ∧
    Script.bareRunner.run (relaying.recorded Script.barePort "a.rhai" t) relayWorld =
      some (x, w) ∧
    lastFailure? x.1 = some relayed ∧
    Script.bareRunner.run ((save t).recorded Script.barePort (.merge relaying.shared t) [])
      relayWorld = some (y, w') ∧
    lastFailure? y.1 = some full ∧ y.2 = .failed relayed := by
  have hrun : ((Script.compile relaying.kit.off saving).toOption.bind fun t =>
      (Script.bareRunner.run (relaying.recorded Script.barePort "a.rhai" t) relayWorld).bind fun s =>
        (Script.bareRunner.run ((save t).recorded Script.barePort (.merge relaying.shared t) [])
          relayWorld).map fun s' =>
          (lastFailure? s.1.1, lastFailure? s'.1.1, failure? s'.1.2)) =
      some (some relayed, some full, some relayed) := by decide +kernel
  obtain ⟨t, ht, hrun⟩ := Option.bind_eq_some_iff.mp hrun
  obtain ⟨⟨x, w⟩, hx, hrun⟩ := Option.bind_eq_some_iff.mp hrun
  obtain ⟨⟨y, w'⟩, hy, hends⟩ := Option.map_eq_some_iff.mp hrun
  simp only [Prod.mk.injEq] at hends
  exact ⟨t, x, w, y, w', Script.compile_eq_ok ht, hx, hends.1, hy, hends.2.1,
    eq_failed_of_failure? hends.2.2⟩

end Sample

/-- A failure comes through two functions of the host and one of the script in its class, and a text
that is no script fails at script level. -/
theorem class_of_failure_sample :
    (∃ g, Sample.relaying.run Script.barePort "a.rhai" "fn" = .done (.failed g, Sample.relaying) ∧
      g.isScriptLevel = true) ∧
    ∃ t es outcome c g, Script.compile Sample.relaying.kit.off Sample.saving = .ok t ∧
      (Sample.relaying.recorded Script.barePort "a.rhai" t).CanEnd (es, outcome, c) ∧
      Relayed Script.barePort Sample.full Sample.relayed ∧ Escaped Sample.relayed es ∧
      outcome = .failed g ∧ g.isScriptLevel = Sample.full.isScriptLevel := by
  constructor
  · have hbad : (Script.compile Sample.relaying.kit.off "fn").toOption.isNone = true := by
      decide +kernel
    obtain ⟨f, hread⟩ := Script.exists_compile_eq_error (Option.isNone_iff_eq_none.mp hbad)
    exact (class_of_failure Script.language_propagates Sample.relaying "a.rhai" "fn").1 f hread
  obtain ⟨t, ⟨es, outcome, c⟩, w, ⟨es', o⟩, w', hread, hx, hlast, hy, hlast', rfl⟩ :=
    Sample.exists_saving
  have hrelayed : Relayed Script.barePort Sample.full Sample.relayed :=
    .callback .returned (Program.canEnd_of_run hy) (Sample.escaped_of_lastFailure? hlast')
  have hescaped : Escaped Sample.relayed es := Sample.escaped_of_lastFailure? hlast
  have hcan := Program.canEnd_of_run hx
  obtain ⟨-, hends⟩ := (class_of_failure Script.language_propagates Sample.relaying "a.rhai"
    Sample.saving).2 t hread
  obtain ⟨g, hg, hlevel, -⟩ := (hends es outcome c hcan).1 _ _ hrelayed hescaped
  exact ⟨t, es, outcome, c, g, hread, hcan, hrelayed, hescaped, hg, hlevel⟩

end Language

end PackHost
