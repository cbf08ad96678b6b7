import PackHost.Pack.Unit

/-!
# The life of a unit

A unit is prepared, run, reset and failed from outside, in any order. Its rewritten text is the one
that the first preprocessor made, whatever happens later, and a run asks the context for something
exactly if there is such a text. The fate of a unit stands for two things that a host can look at,
how far the unit has come and why it failed. `Record` keeps the two apart and changes each of them
by itself; they never contradict each other, because records go through the same as units
(`Step.amend_record`). The main statement is `life_of_unit`.
-/

namespace PackHost.Pack

variable {σ : Type}

/-! ## What happens to a unit -/

/-- What a context does with the text at a location; no answer beyond the bound on its length. -/
abbrev Execution (σ : Type) := String → String → σ → Option (Outcome Unit × σ)

/-- Something that happens to a unit; `σ` is the state of all contexts. -/
inductive Step (σ : Type) where
  | prepare (p : Source.Preprocessor)
  | run (execute : Execution σ)
  | reset
  | fail (f : UnitFailure)

namespace Step

def preprocessor? : Step σ → Option Source.Preprocessor
  | .prepare p => some p
  | _ => none

def apply : Step σ → ScriptUnit × σ → Option (ScriptUnit × σ)
  | .prepare p, (u, s) => some (u.prepare p, s)
  | .run execute, (u, s) => u.run execute s
  | .reset, (u, s) => some (u.reset, s)
  | .fail f, (u, s) => some (u.fail f, s)

/-- What becomes of the unit and of the contexts in several steps. -/
def applyAll : List (Step σ) → ScriptUnit × σ → Option (ScriptUnit × σ)
  | [], x => some x
  | t :: ts, x => (t.apply x).bind (applyAll ts)

end Step

/-! ## Records -/

inductive Stage where
  | pending
  | loaded
  | failed
deriving DecidableEq, Repr

/-- What is known of a unit, where how far it has come and why it failed are kept apart. -/
structure Record where
  file : ScriptFile
  prepared : Option (Except Source.Fault String)
  stage : Stage
  failure : Option UnitFailure

namespace Record

/-- There is a cause exactly for a unit that failed. -/
def Coherent (r : Record) : Prop :=
  (r.stage = .pending ∨ r.stage = .loaded) ∧ r.failure = none ∨
    r.stage = .failed ∧ ∃ f, r.failure = some f

/-- The record with its rewritten text, which is made only once. -/
def prepare (r : Record) (p : Source.Preprocessor) : Record :=
  { r with prepared := r.prepared.or (some (ScriptUnit.prepareText p r.file.source)) }

def reset (r : Record) : Record := { r with stage := .pending, failure := none }

def fail (r : Record) (f : UnitFailure) : Record := { r with stage := .failed, failure := some f }

/-- The record after a run with the given result, and whether the run is reported as a success. -/
def conclude (r : Record) : Except UnitFailure Unit → Bool × Record
  | .ok () => (true, { r with stage := .loaded, failure := none })
  | .error f => (false, r.fail f)

def run (r : Record) (execute : Execution σ) (s : σ) : Option ((Bool × Record) × σ) :=
  match r.prepared with
  | some (.ok text) =>
    (execute r.file.location text s).map fun x => (r.conclude (x.1.toExcept.mapError .script), x.2)
  | some (.error fault) => some (r.conclude (.error (.source fault)), s)
  | none => some (r.conclude (.error (.source (.other "source was not preprocessed"))), s)

end Record

namespace Step

def amend : Step σ → Record × σ → Option (Record × σ)
  | .prepare p, (r, s) => some (r.prepare p, s)
  | .run execute, (r, s) => (r.run execute s).map fun x => (x.1.2, x.2)
  | .reset, (r, s) => some (r.reset, s)
  | .fail f, (r, s) => some (r.fail f, s)

/-- What becomes of the record and of the contexts in several steps. -/
def amendAll : List (Step σ) → Record × σ → Option (Record × σ)
  | [], x => some x
  | t :: ts, x => (t.amend x).bind (amendAll ts)

end Step

/-! ## Units as records -/

def Fate.stage : Fate → Stage
  | .pending => .pending
  | .loaded => .loaded
  | .failed _ => .failed

namespace ScriptUnit

def record (u : ScriptUnit) : Record := ⟨u.file, u.prepared, u.fate.stage, u.fate.failure?⟩

theorem coherent_record (u : ScriptUnit) : u.record.Coherent := by
  unfold Record.Coherent record
  cases u.fate with
  | pending => exact .inl ⟨.inl rfl, rfl⟩
  | loaded => exact .inl ⟨.inr rfl, rfl⟩
  | failed f => exact .inr ⟨rfl, f, rfl⟩

theorem record_prepare (u : ScriptUnit) (p : Source.Preprocessor) :
    (u.prepare p).record = u.record.prepare p := by
  unfold prepare Record.prepare record
  cases hprepared : u.prepared <;> simp [hprepared]

theorem conclude_record (u : ScriptUnit) (ended : Outcome Unit) :
    u.record.conclude (ended.toExcept.mapError .script) =
      (decide (fateOf ended = .loaded), { u with fate := fateOf ended : ScriptUnit }.record) := by
  cases ended <;> rfl

theorem conclude_record_error (u : ScriptUnit) (f : UnitFailure) :
    u.record.conclude (.error f) = (false, (u.fail f).record) := rfl

/-- A unit and its record run in the same way; a run is reported as a success if the unit is loaded
after it. -/
theorem run_record (u : ScriptUnit) (execute : Execution σ) (s : σ) :
    u.record.run execute s =
      (u.run execute s).map fun x => ((decide (x.1.fate = .loaded), x.1.record), x.2) := by
  have hrecord : u.record.prepared = u.prepared := rfl
  have hlocation : u.record.file.location = u.location := rfl
  rcases hprepared : u.prepared with _ | fault | text
  · simp only [run, Record.run, hrecord, hprepared, conclude_record_error, Option.map_some]
    rfl
  · simp only [run, Record.run, hrecord, hprepared, conclude_record_error, Option.map_some]
    rfl
  · simp only [run, Record.run, hrecord, hlocation, hprepared, Option.map_map, conclude_record]
    rfl

end ScriptUnit

namespace Step

/-- **A unit and its record go through the same**, step by step. -/
theorem amend_record (t : Step σ) (u : ScriptUnit) (s : σ) :
    t.amend (u.record, s) = (t.apply (u, s)).map fun x => (x.1.record, x.2) := by
  cases t with
  | prepare p => simp only [amend, apply, Option.map_some, ScriptUnit.record_prepare]
  | run execute => simp only [amend, apply, ScriptUnit.run_record, Option.map_map]; rfl
  | reset => rfl
  | fail f => rfl

theorem amendAll_record (ts : List (Step σ)) (u : ScriptUnit) (s : σ) :
    amendAll ts (u.record, s) = (applyAll ts (u, s)).map fun x => (x.1.record, x.2) := by
  induction ts generalizing u s with
  | nil => rfl
  | cons t ts ih =>
    rw [amendAll, applyAll, amend_record]
    cases t.apply (u, s) with
    | none => rfl
    | some x => exact ih x.1 x.2

/-! ## The rewritten text -/

/-- A step leaves the file alone, and a rewritten text as well; without one, it may prepare it. -/
theorem prepared_apply {t : Step σ} {u u' : ScriptUnit} {s s' : σ}
    (h : t.apply (u, s) = some (u', s')) : u'.file = u.file ∧
      u'.prepared = u.prepared.or
        (t.preprocessor?.map fun p => ScriptUnit.prepareText p u.file.source) := by
  cases t with
  | prepare p =>
    cases h
    unfold ScriptUnit.prepare
    cases hprepared : u.prepared <;> simp [hprepared, preprocessor?]
  | run execute =>
    simp only [apply, ScriptUnit.run] at h
    split at h
    · obtain ⟨x, -, h⟩ := Option.map_eq_some_iff.mp h
      cases h
      exact ⟨rfl, (Option.or_none).symm⟩
    · cases h
      exact ⟨rfl, (Option.or_none).symm⟩
    · cases h
      exact ⟨rfl, (Option.or_none).symm⟩
  | reset =>
    cases h
    exact ⟨rfl, (Option.or_none).symm⟩
  | fail f =>
    cases h
    exact ⟨rfl, (Option.or_none).symm⟩

/-- The first preprocessor makes the text, and no later step changes it. -/
theorem prepared_applyAll {ts : List (Step σ)} {u u' : ScriptUnit} {s s' : σ}
    (h : applyAll ts (u, s) = some (u', s')) : u'.file = u.file ∧
      u'.prepared = u.prepared.or
        ((ts.findSome? preprocessor?).map fun p => ScriptUnit.prepareText p u.file.source) := by
  induction ts generalizing u s with
  | nil =>
    cases h
    exact ⟨rfl, (Option.or_none).symm⟩
  | cons t ts ih =>
    obtain ⟨⟨u₁, s₁⟩, hfirst, hrest⟩ := Option.bind_eq_some_iff.mp h
    obtain ⟨hfile, hprepared⟩ := prepared_apply hfirst
    obtain ⟨hfile', hprepared'⟩ := ih hrest
    refine ⟨hfile'.trans hfile, ?_⟩
    rw [hprepared', hprepared, hfile, Option.or_assoc, List.findSome?_cons]
    cases t.preprocessor? <;> rfl

theorem isSome_applyAll {ts : List (Step σ)} {x : ScriptUnit × σ}
    (answers : ∀ execute, .run execute ∈ ts → ∀ location text s,
      (execute location text s).isSome = true) : (applyAll ts x).isSome = true := by
  induction ts generalizing x with
  | nil => rfl
  | cons t ts ih =>
    obtain ⟨u, s⟩ := x
    have hrest : ∀ y, (applyAll ts y).isSome = true :=
      fun y => ih fun execute h => answers execute (List.mem_cons_of_mem _ h)
    cases t with
    | prepare p => exact hrest _
    | run execute =>
      have hrun : (u.run execute s).isSome = true := by
        unfold ScriptUnit.run
        split
        · rw [Option.isSome_map]
          exact answers execute List.mem_cons_self _ _ _
        · rfl
        · rfl
      obtain ⟨y, hy⟩ := Option.isSome_iff_exists.mp hrun
      rw [applyAll, apply, hy]
      exact hrest y
    | reset => exact hrest _
    | fail f => exact hrest _

end Step

/-! ## Runs -/

structure Call where
  location : String
  text : String
  ended : Outcome Unit
deriving DecidableEq, Repr

/-- The context, where everything is noted that is asked of it. -/
def Execution.noting (execute : Execution σ) : Execution (List Call × σ) := fun location text x =>
  (execute location text x.2).map fun r => (r.1, x.1 ++ [⟨location, text, r.1⟩], r.2)

/-- How a run of a file ends, given the rewritten text: what is asked of the context, whether the
run is reported as a success, the fate of the unit, and what becomes of the contexts. -/
inductive RunEnds (file : ScriptFile) (execute : Execution σ) (s : σ) :
    Option (Except Source.Fault String) → List Call → Bool → Fate → σ → Prop
  | loaded {text : String} {s' : σ} :
      execute file.location text s = some (.done (), s') →
      RunEnds file execute s (some (.ok text)) [⟨file.location, text, .done ()⟩] true .loaded s'
  | failed {text : String} {f : Failure} {s' : σ} :
      execute file.location text s = some (.failed f, s') →
      RunEnds file execute s (some (.ok text)) [⟨file.location, text, .failed f⟩] false
        (.failed (.script f)) s'
  | crashed {text : String} {message : Option String} {s' : σ} :
      execute file.location text s = some (.crashed message, s') →
      RunEnds file execute s (some (.ok text)) [⟨file.location, text, .crashed message⟩] false
        (.failed (.script (.crash (message.getD "unknown panic")))) s'
  | refused {fault : Source.Fault} :
      RunEnds file execute s (some (.error fault)) [] false (.failed (.source fault)) s
  | unprepared :
      RunEnds file execute s none [] false
        (.failed (.source (.other "source was not preprocessed"))) s

namespace RunEnds

variable {file : ScriptFile} {execute : Execution σ} {s s' : σ}
  {prepared : Option (Except Source.Fault String)} {calls : List Call} {success : Bool}
  {fate : Fate}

theorem calls_ne_nil_iff (h : RunEnds file execute s prepared calls success fate s') :
    calls ≠ [] ↔ ∃ text, prepared = some (.ok text) := by
  cases h <;> simp

theorem success_iff (h : RunEnds file execute s prepared calls success fate s') :
    success = true ↔ ∃ call ∈ calls, call.ended = .done () := by
  cases h <;> simp

theorem exists_failure (h : RunEnds file execute s prepared calls success fate s')
    (hfailed : success = false) : ∃ f, fate = .failed f := by
  cases h with
  | loaded => cases hfailed
  | failed => exact ⟨_, rfl⟩
  | crashed => exact ⟨_, rfl⟩
  | refused => exact ⟨_, rfl⟩
  | unprepared => exact ⟨_, rfl⟩

end RunEnds

/-- A run ends if the context answers what is asked of it, and a crash ends there, too. -/
theorem ScriptUnit.exists_runEnds (u : ScriptUnit) (execute : Execution σ) (s : σ)
    (answers : ∀ text, u.prepared = some (.ok text) →
      (execute u.location text s).isSome = true) :
    ∃ calls success u' s', u.run execute.noting ([], s) = some (u', calls, s') ∧
      u.record.run execute s = some ((success, u'.record), s') ∧
      RunEnds u.file execute s u.prepared calls success u'.fate s' := by
  rcases hprepared : u.prepared with _ | fault | text
  · refine ⟨[], false, u.fail (.source (.other "source was not preprocessed")), s, ?_, ?_,
      .unprepared⟩
    · simp only [run, hprepared]
    · simp only [run_record, run, hprepared, Option.map_some, fail, reduceCtorEq, decide_false]
  · refine ⟨[], false, u.fail (.source fault), s, ?_, ?_, .refused⟩
    · simp only [run, hprepared]
    · simp only [run_record, run, hprepared, Option.map_some, fail, reduceCtorEq, decide_false]
  · obtain ⟨⟨ended, s'⟩, hexecute⟩ := Option.isSome_iff_exists.mp (answers text hprepared)
    refine ⟨[⟨u.location, text, ended⟩], decide (fateOf ended = .loaded),
      { u with fate := fateOf ended }, s', ?_, ?_, ?_⟩
    · simp only [run, hprepared, Execution.noting, hexecute, Option.map_some, List.nil_append]
    · simp only [run_record, run, hprepared, hexecute, Option.map_some]
    · rw [hprepared]
      cases ended with
      | done a => exact .loaded hexecute
      | failed f => exact .failed hexecute
      | crashed message => exact .crashed hexecute

/-- **The life of a unit.** Let a unit be prepared, run, reset and failed in any order.

Before the first preparation it has no rewritten text; from then on it has what the first
preprocessor made of the source, where a crash counts as a refusal. How far the unit has come and
why it failed, each kept and changed by itself, are what the unit shows, and there is a cause
exactly if the unit has failed. A run asks the context for something exactly if there is a text, and
then once; it is reported as a success exactly if the context says so. In every other case, a crash
included, it ends with a unit that failed for the reason that `RunEnds` states. -/
theorem life_of_unit (file : ScriptFile) (steps : List (Step σ)) (s : σ) :
    Step.amendAll steps (⟨file, none, .pending, none⟩, s) =
      (Step.applyAll steps (.ofFile file, s)).map (fun x => (x.1.record, x.2)) ∧
    ((∀ execute, .run execute ∈ steps → ∀ location text t,
      (execute location text t).isSome = true) →
        (Step.applyAll steps (.ofFile file, s)).isSome = true) ∧
    ∀ u s', Step.applyAll steps (.ofFile file, s) = some (u, s') →
      u.file = file ∧
      (u.prepared = (steps.findSome? Step.preprocessor?).map fun p =>
        (p file.source).getD (.error (.other "preprocessor panicked"))) ∧
      u.record.Coherent ∧
      ∀ (execute : Execution σ) (t : σ),
        (∀ text, u.prepared = some (.ok text) →
          (execute file.location text t).isSome = true) →
        ∃ calls success u' t', u.run execute.noting ([], t) = some (u', calls, t') ∧
          u.record.run execute t = some ((success, u'.record), t') ∧
          RunEnds file execute t u.prepared calls success u'.fate t' ∧
          (calls ≠ [] ↔ ∃ text, u.prepared = some (.ok text)) ∧
          (success = true ↔ ∃ call ∈ calls, call.ended = .done ()) ∧
          (success = false → ∃ f, u'.fate = .failed f) := by
  refine ⟨Step.amendAll_record steps (.ofFile file) s, Step.isSome_applyAll, fun u s' h => ?_⟩
  obtain ⟨hfile, hprepared⟩ := Step.prepared_applyAll h
  have hfile : u.file = file := hfile
  refine ⟨hfile, hprepared, u.coherent_record, fun execute t answers => ?_⟩
  rw [← hfile] at answers ⊢
  obtain ⟨calls, success, u', t', hrun, hrecord, hends⟩ := u.exists_runEnds execute t answers
  exact ⟨calls, success, u', t', hrun, hrecord, hends, hends.calls_ne_nil_iff, hends.success_iff,
    hends.exists_failure⟩

def Sample.counting : Execution Nat := fun _ text n =>
  some (if text = "crash" then .crashed none else .done (), n + 1)

/-- A unit runs without a text, is prepared twice, the second time by what crashes, runs and crashes
in its turn, is failed and reset; the run after that is asked for with the first text. -/
theorem life_of_unit_sample :
    let file : ScriptFile := .ofSource "a.word" 0 "crash"
    let steps : List (Step Nat) := [.run Sample.counting, .prepare .passthrough,
      .prepare .crashing, .run Sample.counting, .fail (.script (.host "gone")), .reset]
    ∃ u s, Step.applyAll steps (.ofFile file, 0) = some (u, s) ∧ s = 1 ∧
      u.prepared = some (.ok "crash") ∧ u.record.Coherent ∧
      ∃ u', u.run Sample.counting.noting ([], s) =
          some (u', [⟨"a.word", "crash", .crashed none⟩], 2) ∧
        u'.fate = .failed (.script (.crash "unknown panic")) := by
  intro file steps
  have hanswers : ∀ execute, .run execute ∈ steps → ∀ location text t,
      (execute location text t).isSome = true := by
    intro execute hmem location text t
    have heq : execute = Sample.counting := by simpa [steps] using hmem
    rw [heq]
    rfl
  obtain ⟨-, hsome, hlife⟩ := life_of_unit file steps 0
  obtain ⟨⟨u, s⟩, h⟩ := Option.isSome_iff_exists.mp (hsome hanswers)
  have hstate : (Step.applyAll steps (.ofFile file, 0)).map Prod.snd = some 1 := rfl
  rw [h] at hstate
  have hs : s = 1 := Option.some.inj hstate
  obtain ⟨-, hprepared, hcoherent, hrun⟩ := hlife u s h
  have htext : u.prepared = some (.ok "crash") := hprepared
  obtain ⟨calls, success, u', t', hrun, -, hends, -⟩ := hrun Sample.counting s fun _ _ => rfl
  have hcrash : Sample.counting file.location "crash" s = some (.crashed none, s + 1) := rfl
  refine ⟨u, s, h, hs, htext, hcoherent, u', ?_⟩
  rw [htext] at hends
  subst hs
  rw [hrun]
  generalize hfate : u'.fate = fate at hends
  cases hends with
  | loaded hexecute =>
    rw [hcrash] at hexecute
    cases hexecute
  | failed hexecute =>
    rw [hcrash] at hexecute
    cases hexecute
  | crashed hexecute =>
    rw [hcrash] at hexecute
    cases hexecute
    exact ⟨rfl, rfl⟩

end PackHost.Pack
