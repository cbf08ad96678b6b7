import PackHost.Proofs.Script.Laws

/-!
# Failed calls on their way through a run

A call that failed and that nothing has caught is the fault with which an evaluation ends, and no
evaluation goes on while there is one. `Eval.Meets` says this of an evaluation between two
conditions on the course of the run; there is one lemma for each way of making an evaluation of
others.
-/

namespace PackHost

open PackHost.Language (Fails Tells)

namespace Script

/-! ## The course of a run -/

def Settled (hs : List (Happening Datum)) : Prop :=
  ∀ r, Fails (L := language) r → ¬ Uncaught r hs

theorem settled_nil : Settled [] := by
  rintro r - ⟨later, earlier, h, -⟩
  simp at h

theorem settled_caught (hs : List (Happening Datum)) : Settled (.caught :: hs) := by
  rintro r - ⟨later, earlier, heq, hlater⟩
  cases later with
  | nil => cases heq
  | cons m later =>
    obtain ⟨rfl, -⟩ := List.cons_eq_cons.mp heq
    exact hlater List.mem_cons_self

/-- The last call is the only one that may not be caught. -/
theorem uncaught_cons {r r' : Response Datum} {hs : List (Happening Datum)} (h : Settled hs)
    (hr : Fails (L := language) r') (hu : Uncaught r' (.response r :: hs)) : r' = r := by
  obtain ⟨later, earlier, heq, hlater⟩ := hu
  cases later with
  | nil =>
    cases heq
    rfl
  | cons m later =>
    obtain ⟨-, rfl⟩ := List.cons_eq_cons.mp heq
    exact absurd ⟨later, earlier, rfl, fun hm => hlater (List.mem_cons_of_mem _ hm)⟩ (h r' hr)

theorem settled_response {r : Response Datum} {hs : List (Happening Datum)} (h : Settled hs)
    (hr : ¬ Fails (L := language) r) : Settled (.response r :: hs) := by
  intro r' hr' hu
  obtain rfl := uncaught_cons h hr' hu
  exact hr hr'

/-! ## Faults -/

def Cause.isHost : Cause → Bool
  | .host .. => true
  | _ => false

def Cause.StandsFor (c : Cause) (r : Response Datum) : Prop :=
  ∀ place, Tells language r (c.toError place)

/-- The fault is what a script gets of the response. A script cannot catch what the host is to blame
for, so such a fault leaves functions as it is. -/
structure Fault.StandsFor (f : Fault) (r : Response Datum) : Prop where
  cause : f.cause.StandsFor r
  frames : f.cause.isHost = true → f.frames = []

/-- How a run with the given course may end early. -/
inductive Passes : Exit → List (Happening Datum) → Prop
  | failed {f : Fault} {r : Response Datum} {hs : List (Happening Datum)} : Settled hs →
      f.StandsFor r → Passes (.fault f) (.response r :: hs)
  | fault {f : Fault} {hs : List (Happening Datum)} : Settled hs → f.cause.isHost = false →
      Passes (.fault f) hs
  | exit {x : Exit} {hs : List (Happening Datum)} : Settled hs → (∀ f, x ≠ .fault f) → Passes x hs

def Fits {α : Type} : Except Exit α → List (Happening Datum) → Prop
  | .ok _, hs => Settled hs
  | .error x, hs => Passes x hs

namespace Fault

variable {f : Fault} {r : Response Datum} {place : Option Source.Position}

@[simp] theorem cause_fillPlace (f : Fault) (place : Option Source.Position) :
    (f.fillPlace place).cause = f.cause := by
  unfold fillPlace
  split <;> split <;> rfl

@[simp] theorem cause_leave (f : Fault) (name source : String) (place : Option Source.Position) :
    (f.leave name source place).cause = f.cause := by
  unfold leave
  split <;> rfl

@[simp] theorem cause_setOuterPlace (f : Fault) (place : Option Source.Position) :
    (f.setOuterPlace place).cause = f.cause := by
  unfold setOuterPlace
  split <;> rfl

theorem StandsFor.fillPlace (h : f.StandsFor r) : (f.fillPlace place).StandsFor r := by
  refine ⟨by rw [cause_fillPlace]; exact h.cause, fun hhost => ?_⟩
  rw [cause_fillPlace] at hhost
  have hframes := h.frames hhost
  unfold Fault.fillPlace
  rw [hframes]
  dsimp only
  split
  · rfl
  · exact hframes

theorem StandsFor.leave {name source : String} (h : f.StandsFor r) :
    (f.leave name source place).StandsFor r := by
  refine ⟨by rw [cause_leave]; exact h.cause, fun hhost => ?_⟩
  rw [cause_leave] at hhost
  have hframes := h.frames hhost
  have hforeign : f.cause.isForeign = true := by
    cases hcause : f.cause <;> rw [hcause] at hhost <;> first | rfl | cases hhost
  unfold Fault.leave
  rw [hforeign]
  exact hframes

/-- A script cannot catch what the host is to blame for. -/
theorem StandsFor.isHost_of_isCatchable (h : f.StandsFor r) (hc : f.isCatchable = true) :
    f.cause.isHost = false := by
  refine Bool.eq_false_iff.mpr fun hhost => ?_
  have hcatchable : f.cause.isCatchable = false := by
    cases hcause : f.cause <;> rw [hcause] at hhost <;> first | rfl | cases hhost
  rw [isCatchable, h.frames hhost, hcatchable] at hc
  cases hc

theorem innermost_toError (f : Fault) : f.toError.innermost = f.cause.toError f.place := by
  obtain ⟨cause, place, frames⟩ := f
  unfold toError
  induction frames with
  | nil => cases cause <;> rfl
  | cons frame frames ih => exact ih

theorem ne_system_of_isHost {c : Cause} (h : c.isHost = false) (place : Option Source.Position)
    (function message : String) : c.toError place ≠ .system function message := by
  intro heq
  cases c with
  | host => cases h
  | _ => cases heq

end Fault

namespace Passes

variable {x : Exit} {hs : List (Happening Datum)}

theorem fillPlace (h : Passes x hs) (place : Option Source.Position) :
    Passes (x.fillPlace place) hs := by
  cases h with
  | failed hs hf => exact .failed hs hf.fillPlace
  | fault hs hf => exact .fault hs (by rwa [Fault.cause_fillPlace])
  | exit hs hx =>
    refine .exit hs fun f => ?_
    cases x with
    | fault g => exact absurd rfl (hx g)
    | quit place' => cases place' <;> simp [Exit.fillPlace]
    | _ => simp [Exit.fillPlace]

/-- No call is uncaught at the end of a run that was left on purpose. -/
theorem settled (h : Passes x hs) (hx : ∀ f, x ≠ .fault f) : Settled hs := by
  cases h with
  | failed => exact absurd rfl (hx _)
  | fault hs => exact hs
  | exit hs => exact hs

theorem settled_of_raised_unit {place : Option Source.Position} {frames : List CallFrame}
    (h : Passes (.fault ⟨.raised .unit, place, frames⟩) hs) : Settled hs := by
  cases h with
  | failed _ hf =>
    obtain ⟨message, hunit⟩ := (hf.cause none).eq_make
    cases hunit
  | fault hs => exact hs
  | exit hs => exact hs

theorem isHost_of_isCatchable {f : Fault} (h : Passes (.fault f) hs) (hc : f.isCatchable = true) :
    f.cause.isHost = false := by
  cases h with
  | failed _ hf => exact hf.isHost_of_isCatchable hc
  | fault _ hf => exact hf
  | exit _ hx => exact absurd rfl (hx f)

end Passes

/-! ## Evaluations -/

namespace Eval

variable {α β : Type}

theorem bind_apply (p : Eval β) (k : β → Eval α) (frame : Frame) :
    (p >>= k) frame = (p frame).bind fun r =>
      match r.1 with
      | .ok b => k b r.2
      | .error e => .done (.error e, r.2) := by
  change (p frame).bind _ = _
  congr 1
  funext r
  obtain ⟨r, frame⟩ := r
  cases r <;> rfl

/-- After a course of the first kind the evaluation gives values with a course of the second kind,
and ends early in no other way than with the call that was not caught. -/
def Meets (P : List (Happening Datum) → Prop) (p : Eval α)
    (Q : α → List (Happening Datum) → Prop) : Prop :=
  ∀ hs frame, P hs → (p frame).Ends (fun hs' r =>
    match r.1 with
    | .ok a => Q a hs'
    | .error x => Passes x hs') hs

/-- The evaluation goes on only where all failed calls are caught. -/
def Sound (p : Eval α) : Prop := p.Meets Settled fun _ => Settled

/-- The evaluation makes no calls, catches nothing and always has a value. -/
def Quiet (p : Eval α) : Prop :=
  ∀ hs frame, (p frame).Ends (fun hs' r => (∃ a, r.1 = .ok a) ∧ hs' = hs) hs

section

variable {P P' : List (Happening Datum) → Prop} {Q Q' : α → List (Happening Datum) → Prop}
  {p : Eval α}

theorem Meets.imp (h : p.Meets P Q) (hP : ∀ hs, P' hs → P hs) (hQ : ∀ a hs, Q a hs → Q' a hs) :
    p.Meets P' Q' := by
  intro hs frame hcourse
  refine (h hs frame (hP _ hcourse)).imp fun hs' r hr => ?_
  obtain ⟨r, frame'⟩ := r
  cases r with
  | ok a => exact hQ a _ hr
  | error x => exact hr

theorem Meets.pure {a : α} (h : ∀ hs, P hs → Q a hs) : Meets P (pure a : Eval α) Q :=
  fun hs _ hcourse => h hs hcourse

theorem Meets.bind {R : β → List (Happening Datum) → Prop} {p : Eval β} {k : β → Eval α}
    (h : p.Meets P R) (hk : ∀ b, (k b).Meets (R b) Q) : Meets P (p >>= k) Q := by
  intro hs frame hcourse
  rw [bind_apply]
  refine (h hs frame hcourse).bind fun hs' r hr => ?_
  obtain ⟨r, frame'⟩ := r
  cases r with
  | ok b => exact hk b hs' frame' hr
  | error x => exact hr

theorem Sound.attempt (h : p.Sound) : p.attempt.Meets Settled Fits := by
  intro hs frame hcourse
  refine (h hs frame hcourse).bind fun hs' r hr => ?_
  obtain ⟨r, frame'⟩ := r
  cases r <;> exact hr

theorem meets_settle (r : Except Exit α) : (settle r : Eval α).Meets (Fits r) fun _ => Settled := by
  intro hs frame hcourse
  cases r <;> exact hcourse

theorem meets_catches : catches.Meets P fun _ => Settled :=
  fun hs _ _ => settled_caught hs

theorem Meets.enclosed (h : p.Meets P Q) : p.enclosed.Meets P Q := by
  intro hs frame hcourse
  refine (h hs frame hcourse).bind fun hs' r hr => ?_
  obtain ⟨r, frame'⟩ := r
  cases r <;> exact hr

theorem Meets.apart (h : p.Meets P Q) (scope : Scope) : (p.apart scope).Meets P Q := by
  intro hs frame hcourse
  refine (h hs { frame with scope := scope } hcourse).bind fun hs' r hr => ?_
  obtain ⟨r, frame'⟩ := r
  cases r <;> exact hr

theorem Quiet.meets (h : p.Quiet) (P : List (Happening Datum) → Prop) : p.Meets P fun _ => P := by
  intro hs frame hcourse
  refine (h hs frame).imp fun hs' r hr => ?_
  obtain ⟨r, frame'⟩ := r
  obtain ⟨⟨a, rfl⟩, rfl⟩ := hr
  exact hcourse

end

variable {p : Eval α}

theorem Sound.pure (a : α) : (pure a : Eval α).Sound := Meets.pure fun _ h => h

theorem Sound.bind {p : Eval β} {k : β → Eval α} (h : p.Sound) (hk : ∀ b, (k b).Sound) :
    Sound (p >>= k) :=
  Meets.bind h hk

theorem Quiet.sound (h : p.Quiet) : p.Sound := h.meets Settled

theorem sound_fail {cause : Cause} (h : cause.isHost = false) (place : Option Source.Position) :
    (fail cause place : Eval α).Sound :=
  fun _ _ hcourse => .fault hcourse h

theorem sound_throw {x : Exit} (h : ∀ f, x ≠ .fault f) : (throw x : Eval α).Sound :=
  fun _ _ hcourse => .exit hcourse h

theorem Sound.rounds {round : Eval (Option α)} (h : round.Sound) : (rounds round).Sound := by
  intro hs frame hcourse
  refine Session.ends_iterate (I := fun hs _ => Settled hs) (fun hs s hs' => ?_) boundless hcourse
  refine (h hs s hs').bind fun later r hr => ?_
  obtain ⟨r, frame'⟩ := r
  match r, hr with
  | .ok none, hr => exact hr
  | .ok (some a), hr => exact hr
  | .error x, hr => exact hr

/-! ## Evaluations without calls -/

theorem Quiet.pure (a : α) : (pure a : Eval α).Quiet := fun _ _ => ⟨⟨a, rfl⟩, rfl⟩

theorem Quiet.bind {p : Eval β} {k : β → Eval α} (h : p.Quiet) (hk : ∀ b, (k b).Quiet) :
    Quiet (p >>= k) := by
  intro hs frame
  rw [bind_apply]
  refine (h hs frame).bind fun hs' r hr => ?_
  obtain ⟨r, frame'⟩ := r
  obtain ⟨⟨b, rfl⟩, rfl⟩ := hr
  exact hk b _ frame'

theorem quiet_get : (get : Eval Frame).Quiet := fun _ frame => ⟨⟨frame, rfl⟩, rfl⟩

theorem quiet_define (name : String) (constant : Bool) (d : Datum) :
    (define name constant d).Quiet :=
  fun _ _ => ⟨⟨(), rfl⟩, rfl⟩

theorem quiet_defineSome (name : Option String) (d : Datum) : (defineSome name d).Quiet := by
  cases name with
  | none => exact .pure ()
  | some name => exact quiet_define name false d

end Eval

namespace Env

open Eval

variable (env : Env)

theorem sound_tick (place : Option Source.Position) : (env.tick place).Sound := by
  intro hs frame hcourse
  unfold tick
  dsimp only
  split
  · exact .fault hcourse rfl
  · exact hcourse

theorem quiet_readCells : readCells.Quiet := fun _ _ cells => ⟨⟨cells, rfl⟩, rfl⟩

theorem quiet_changeCells (f : Cells → Cells) : (changeCells f).Quiet := fun _ _ => ⟨⟨(), rfl⟩, rfl⟩

theorem quiet_readCell (cell : Nat) : (readCell cell).Quiet :=
  quiet_readCells.bind fun _ => .pure _

theorem quiet_look (constant : Bool) (slot : Slot) : (look constant slot).Quiet := by
  cases slot with
  | own d => exact .pure _
  | shared cell => exact (quiet_readCell cell).bind fun _ => .pure _

theorem sound_lookUp (v : Mention) : (env.lookUp v).Sound := by
  refine quiet_get.sound.bind fun frame => ?_
  split
  · exact (quiet_look _ _).sound
  · split
    · exact .pure _
    · exact sound_fail rfl _

theorem quiet_store (name : String) (d : Datum) : (store name d).Quiet := by
  refine quiet_get.bind fun frame => ?_
  split
  · exact quiet_changeCells _
  · exact fun _ _ => ⟨⟨(), rfl⟩, rfl⟩

theorem quiet_storeSome (name : Option String) (d : Datum) : (storeSome name d).Quiet := by
  cases name with
  | none => exact .pure ()
  | some name => exact quiet_store name d

theorem sound_share (name : String) (place : Source.Position) : (share name place).Sound := by
  refine quiet_get.sound.bind fun frame => ?_
  split
  · exact sound_fail rfl _
  · exact .pure _
  · refine quiet_readCells.sound.bind fun h => (quiet_changeCells _).sound.bind fun _ => ?_
    exact Sound.bind (fun _ _ hcourse => hcourse) fun _ => .pure _

theorem sound_shareAll (vs : List (String × Source.Position)) : (shareAll vs).Sound := by
  induction vs with
  | nil => exact .pure _
  | cons v vs ih => exact (sound_share v.1 v.2).bind fun _ => ih.bind fun _ => .pure _

end Env

end Script

end PackHost
