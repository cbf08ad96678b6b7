import PackHost.Proofs.Script.Reply

/-!
# Failures on their way through scripts

Whatever a script does, a failure of a function of the host that it does not catch ends the run:
`Env.sound_stmts` for statements, and `Calls.sound_within` for the functions of scripts, however
deep they call each other. There is one lemma for each function that evaluates something.
-/

namespace PackHost.Script

namespace Env

open Eval

variable {calls : Calls} (env : Env)

/-! ## Expressions and statements -/

theorem sound_truth (d : Datum) (place : Option Source.Position) :
    (truth d place : Eval Bool).Sound := by
  unfold truth
  split
  · exact .pure _
  · exact sound_fail rfl _

theorem sound_operate (sign : String) {r : Option Result} (h : ∀ x, r = some x → x.IsOwn)
    (ds : List Datum) (place : Source.Position) : (operate sign r ds place : Eval Datum).Sound := by
  unfold operate
  split
  · exact .pure _
  · cases h _ rfl with
    | error hc => exact sound_fail hc _
  · exact sound_fail rfl _

theorem sound_pointerTo (d : Datum) (place : Source.Position) :
    (pointerTo d place : Eval Datum).Sound := by
  unfold pointerTo
  split
  · split
    · exact .pure _
    · exact sound_fail rfl _
  · exact sound_fail rfl _

theorem sound_itemsOf (d : Datum) (place : Source.Position) :
    (itemsOf d place : Eval Items).Sound := by
  unfold itemsOf
  split
  · exact .pure _
  · exact .pure _
  · exact .pure _
  · exact sound_fail rfl _

theorem sound_callSpecial (hcalls : calls.Sound) (name : String) (args : List Datum)
    (place : Source.Position) : (callSpecial calls env name args place).Sound := by
  unfold callSpecial
  split
  · exact sound_pointerTo _ _
  · exact hcalls.text _ _ _
  · exact sound_fail rfl _
  · exact env.sound_callPointer hcalls _ _ _ _ _
  · exact sound_fail rfl _
  · exact .pure _

theorem sound_callOnVariable (hcalls : calls.Sound) (name : String) (v : Mention)
    (more : List Datum) (place : Source.Position) :
    (callOnVariable calls env name v more place).Sound := by
  refine (env.sound_lookUp v).bind fun s => ?_
  refine (env.replies_callNamed hcalls _ _ _ _).bind fun r => ?_
  split
  · exact ((quiet_store v.name r.2).meets _).bind fun _ => meets_settle r.1
  · exact meets_settle r.1

theorem sound_roundEnd {p : Eval Datum} (h : p.Sound) : (roundEnd p).Sound := by
  refine h.attempt.bind fun r => ?_
  split
  · exact Meets.pure fun _ hms => hms
  · exact Meets.pure fun _ hms => hms.settled (by simp)
  · exact Meets.pure fun _ hms => hms.settled (by simp)
  · exact fun _ _ hcourse => hcourse

theorem sound_eachItem {set : Datum → Nat → Eval Unit} {body : Eval Datum}
    (hset : ∀ d i, (set d i).Sound) (hbody : body.Sound) (place : Source.Position) (items : Items) :
    (eachItem env set body place items).Sound := by
  intro hs frame hcourse
  refine Session.ends_iterate (I := fun hs _ => Settled hs) (fun hs s hs' => ?_) boundless hcourse
  split
  · exact hs'
  · next d rest _ =>
    have hround := (hset d s.1.2).bind fun _ => (env.sound_tick place).bind fun _ =>
      sound_roundEnd hbody
    refine (hround hs s.2 hs').bind fun later r hr => ?_
    obtain ⟨r, frame'⟩ := r
    match r, hr with
    | .ok none, hr => exact hr
    | .ok (some v), hr => exact hr
    | .error x, hr => exact hr

/-- **What is caught is dealt with.** The host is never to blame for it, and a handler that raises
the fault again raises one of the script. -/
theorem sound_rescued {body : Eval Datum} {handler : Datum → Eval Datum} (hbody : body.Sound)
    (hhandler : ∀ d, (handler d).Sound) : (rescued env body handler).Sound := by
  refine hbody.attempt.bind fun r => ?_
  split
  · next f =>
    split
    · next hcatchable =>
      by_cases hf : f.cause.isHost = false
      · refine meets_catches.bind fun _ => (hhandler _).attempt.bind fun r => ?_
        split
        · exact Meets.pure fun _ hms => hms
        · exact fun hs _ hcourse => .fault hcourse.settled_of_raised_unit
            (by rwa [Fault.cause_setOuterPlace])
        · exact fun _ _ hcourse => hcourse
      · exact fun _ _ hcourse => absurd (hcourse.isHost_of_isCatchable hcatchable) hf
    · exact fun _ _ hcourse => hcourse
  · exact meets_settle r

section

variable (hcalls : calls.Sound)
include hcalls

-- each of these uses the hypothesis, some of them through the others
set_option linter.unusedSectionVars false

mutual

theorem sound_expr : ∀ e : Expr, (expr calls env e).Sound
  | .literal _ => .pure _
  | .template parts => (sound_exprs parts).bind fun _ => .pure _
  | .variable_ .. => (env.sound_tick _).bind fun _ => (env.sound_lookUp _).bind fun _ => .pure _
  | .array items => (sound_exprs items).bind fun _ => .pure _
  | .map entries => (sound_entryValues entries).bind fun _ => .pure _
  | .call name args place => by
    refine (env.sound_tick _).bind fun _ => ?_
    split
    · exact (sound_exprs args).bind fun _ => env.sound_callSpecial hcalls _ _ _
    · split
      · exact (sound_exprsBehind args).bind fun _ => env.sound_callOnVariable hcalls _ _ _ _
      · exact (sound_exprs args).bind fun _ =>
          (env.replies_callNamed hcalls _ _ _ _).bind fun r => meets_settle r.1
  | .unary op e place => by
    refine (env.sound_tick _).bind fun _ => (sound_expr e).bind fun d => ?_
    exact sound_operate _ (fun _ => isOwn_applyUnary) _ _
  | .binary op left right place => by
    refine (env.sound_tick _).bind fun _ => (sound_expr left).bind fun a =>
      (sound_expr right).bind fun b => ?_
    exact sound_operate _ (fun _ => isOwn_apply) _ _
  | .and left right _ _ => by
    refine (sound_expr left).bind fun d => (sound_truth d _).bind fun holds => ?_
    cases holds with
    | true => exact (sound_expr right).bind fun _ => (sound_truth _ _).bind fun _ => .pure _
    | false => exact .pure _
  | .or left right _ _ => by
    refine (sound_expr left).bind fun d => (sound_truth d _).bind fun holds => ?_
    cases holds with
    | true => exact .pure _
    | false => exact (sound_expr right).bind fun _ => (sound_truth _ _).bind fun _ => .pure _
  | .otherwise left right => by
    refine (sound_expr left).bind fun d => ?_
    split
    · exact sound_expr right
    · exact .pure _
  | .contained value collection negated place => by
    refine (env.sound_tick _).bind fun _ => (sound_expr collection).bind fun c =>
      (sound_expr value).bind fun v => (env.replies_callNamed hcalls _ _ _ _).bind fun r =>
        (meets_settle r.1).bind fun found => ?_
    split
    · exact (sound_truth _ _).bind fun _ => .pure _
    · exact Sound.pure _
  | .chain root links => by
    refine (sound_path links).bind fun steps => ?_
    split
    · exact (env.sound_tick _).bind fun _ => env.sound_followFrom hcalls _ _ _
    · exact (sound_expr root).bind fun d =>
        (env.replies_follow hcalls _ _ _ _).bind fun r => meets_settle r.1
  | .lambda _ captured => (sound_shareAll captured).bind fun _ => .pure _
  | .block body => (sound_stmts body).enclosed
  | .cond test place yes no => by
    refine (sound_expr test).bind fun d => (sound_truth d _).bind fun holds => ?_
    cases holds with
    | true => exact (sound_stmts yes).enclosed
    | false => exact (sound_stmts no).enclosed
  | .select subject all => by
    refine (sound_expr subject).bind fun d => (sound_choose .values d all).bind fun found => ?_
    split
    · exact .pure _
    · refine (sound_choose .ranges d all).bind fun found => ?_
      split
      · exact .pure _
      · exact (sound_choose .others d all).bind fun _ => .pure _

theorem sound_exprs : ∀ es : List Expr, (exprs calls env es).Sound
  | [] => .pure _
  | e :: es => (sound_expr e).bind fun _ => (sound_exprs es).bind fun _ => .pure _

theorem sound_entryValues : ∀ es : List (String × Expr), (entryValues calls env es).Sound
  | [] => .pure _
  | (_, e) :: es => (sound_expr e).bind fun _ => (sound_entryValues es).bind fun _ => .pure _

theorem sound_exprsBehind : ∀ es : List Expr, (exprsBehind calls env es).Sound
  | [] => .pure _
  | _ :: es => sound_exprs es

theorem sound_pathOf (e : Expr) : (pathOf calls env e).Sound := by
  cases e with
  | chain root links => exact sound_path links
  | _ => exact .pure _

theorem sound_path : ∀ links : List Link, (path calls env links).Sound
  | [] => .pure _
  | .property .. :: links => (sound_path links).bind fun _ => .pure _
  | .index e _ :: links => (sound_expr e).bind fun _ => (sound_path links).bind fun _ => .pure _
  | .method _ args _ :: links =>
    (sound_exprs args).bind fun _ => (sound_path links).bind fun _ => .pure _

theorem sound_choose (kind : ArmKind) (subject : Datum) :
    ∀ arms : List Arm, (choose calls env kind subject arms).Sound
  | [] => .pure _
  | .mk values guard_ place body :: arms => by
    have hwanted : ∀ wanted : Bool, (do
        if wanted then return some (← Eval.enclosed (stmts calls env body))
        choose calls env kind subject arms).Sound := by
      intro wanted
      cases wanted with
      | true => exact (sound_stmts body).enclosed.bind fun _ => Sound.pure _
      | false => exact sound_choose kind subject arms
    have hfit : ∀ fit : Bool, (do
        let wanted ← if fit then guarded calls env guard_ place else pure false
        if wanted then return some (← Eval.enclosed (stmts calls env body))
        choose calls env kind subject arms).Sound := by
      intro fit
      cases fit with
      | true => exact (sound_guarded guard_ place).bind hwanted
      | false => exact hwanted false
    unfold choose
    dsimp only
    split
    · exact (sound_exprs values).bind fun _ => hfit _
    · exact hfit false

theorem sound_guarded : ∀ (test : Option Expr) (place : Source.Position),
    (guarded calls env test place).Sound
  | none, _ => .pure _
  | some e, _ => (sound_expr e).bind fun _ => sound_truth _ _

theorem sound_optional : ∀ value : Option Expr, (optional_ calls env value).Sound
  | none => .pure _
  | some e => sound_expr e

theorem sound_stmt : ∀ s : Stmt, (stmt calls env s).Sound
  | .expr e => sound_expr e
  | .define name constant value =>
    (sound_expr value).bind fun d => (quiet_define name constant d).sound.bind fun _ => .pure _
  | .assign target op value place => by
    refine (sound_expr value).bind fun d => (sound_pathOf target).bind fun steps => ?_
    split
    · exact (env.sound_tick _).bind fun _ => env.sound_followFrom hcalls _ _ _
    · exact .pure _
  | .loop test body place => by
    refine Sound.rounds ((env.sound_tick _).bind fun _ => (sound_guarded test place).bind
      fun holds => ?_)
    cases holds with
    | true => exact sound_roundEnd (sound_stmts body).enclosed
    | false => exact .pure _
  | .loopAfter body test goOn place => by
    refine Sound.rounds ((env.sound_tick _).bind fun _ =>
      (sound_roundEnd (sound_stmts body).enclosed).bind fun found => ?_)
    split
    · exact .pure _
    · refine (sound_expr test).bind fun d => (sound_truth d _).bind fun holds => ?_
      split
      · exact .pure _
      · exact .pure _
  | .each name counter source body place => by
    refine (sound_expr source).bind fun d => (sound_itemsOf d place).bind fun items =>
      Meets.enclosed ((quiet_defineSome counter _).sound.bind fun _ =>
        (quiet_define name false _).sound.bind fun _ => ?_)
    exact env.sound_eachItem (fun d i => (quiet_storeSome counter _).sound.bind fun _ =>
      (quiet_store name d).sound) (sound_stmts body).enclosed place items
  | .leave value => (sound_optional value).bind fun _ => sound_throw (by simp)
  | .next => sound_throw (by simp)
  | .give value => (sound_optional value).bind fun _ => sound_throw (by simp)
  | .raise value place => (sound_optional value).bind fun _ => sound_fail (by rfl) place
  | .rescue body name handler => by
    rw [stmt]
    refine env.sound_rescued (sound_stmts body).enclosed fun d => Meets.enclosed ?_
    exact (quiet_defineSome name d).sound.bind fun _ => sound_stmts handler

theorem sound_stmts : ∀ ss : List Stmt, (stmts calls env ss).Sound
  | [] => .pure _
  | [s] => sound_stmt s
  | s :: t :: ss => by
    rw [stmts]
    · exact (sound_stmt s).bind fun _ => sound_stmts (t :: ss)
    · exact List.cons_ne_nil t ss

end

end

end Env

/-! ## Functions of scripts -/

theorem Passes.atReturn {x : Exit} {ms : List (Happening Datum)} (h : Passes x ms) (r : Routine)
    (source : String) (place : Option Source.Position) : Fits (x.atReturn r source place) ms := by
  cases h with
  | failed hms hf => exact .failed hms hf.leave
  | fault hms hf => exact .fault hms (by rwa [Fault.cause_leave])
  | exit hms hx =>
    cases x with
    | fault f => exact absurd rfl (hx f)
    | give d => exact hms
    | _ => exact .exit hms hx

namespace Calls

open Eval

variable {calls : Calls} (h : calls.Sound) (env : Env)
include h

/-- **A failure that is not caught leaves a function as it came into it.** -/
theorem sound_runRoutine (r : Routine) (args : List Slot) (place : Option Source.Position) :
    (calls.runRoutine env r args place).Sound := by
  refine (env.sound_tick place).bind fun _ => ?_
  split
  · exact sound_fail (by rfl) place
  · have hbody : (Eval.apart (.ofParams r.params args) (env.deeper.stmts calls r.body)).Sound :=
      Meets.apart (env.deeper.sound_stmts h r.body) _
    refine hbody.attempt.bind fun result => ?_
    split
    · exact Meets.pure fun _ hms => hms
    · exact fun hs frame hcourse => meets_settle _ hs frame (hcourse.atReturn r env.source place)

theorem sound_runNamed (name : String) (args : List Datum) (place : Option Source.Position) :
    (calls.runNamed env name args place).Sound :=
  (env.replies_callNamed h .plain name args place).bind fun r => meets_settle r.1

theorem sound_runText (text : String) (place : Option Source.Position) :
    (calls.runText env text place).Sound := by
  unfold runText
  split
  · exact sound_fail (by rfl) _
  · split
    · exact env.sound_stmts h _
    · exact sound_fail (by rfl) place

omit h in
theorem sound_ofDepth (n : Nat) : (ofDepth n : Calls).Sound := by
  induction n with
  | zero =>
    exact ⟨fun _ _ _ _ _ _ _ => trivial, fun _ _ _ _ _ _ _ => trivial,
      fun _ _ _ _ _ _ => trivial⟩
  | succ n ih =>
    exact ⟨fun env r args place => sound_runRoutine ih env r args place,
      fun env name args place => sound_runNamed ih env name args place,
      fun env text place => sound_runText ih env text place⟩

omit h in
/-- Functions of scripts may call each other as deep as the budget says. -/
theorem sound_within (limits : Limits) : (within limits : Calls).Sound := sound_ofDepth _

end Calls

/-! ## The end of a run -/

theorem carries_of_settled {α : Type} {hs : List (Happening Datum)} {x : Ended Datum α}
    (h : Settled hs)
    (hx : ∀ e function message, x = .failed e → e.innermost ≠ .system function message) :
    language.Carries hs x where
  outward r hr hu := absurd hu (h r hr)
  inward e function message he hinner := absurd hinner (hx e function message he)

theorem Passes.carries {α : Type} {x : Exit} {hs : List (Happening Datum)} (h : Passes x hs) :
    language.Carries hs (x.ended : Ended Datum α) := by
  cases h with
  | @failed f r hs hsettled hf =>
    have htells : language.Tells r f.toError.innermost :=
      f.innermost_toError ▸ hf.cause f.place
    refine ⟨fun r' hr' hu => ⟨f.toError, rfl, ?_⟩, fun e function message he hinner => ?_⟩
    · rw [uncaught_cons hsettled hr' hu]
      exact htells
    · cases he
      rw [hinner] at htells
      obtain ⟨taken, rfl⟩ := htells.exists_eq_system
      exact ⟨taken, [], hs, rfl, List.not_mem_nil⟩
  | @fault f hs hsettled hf =>
    refine carries_of_settled hsettled fun e function message he => ?_
    cases he
    rw [f.innermost_toError]
    exact Fault.ne_system_of_isHost hf f.place function message
  | exit hsettled hx =>
    refine carries_of_settled hsettled fun e function message he => ?_
    cases x with
    | fault f => exact absurd rfl (hx f)
    | crash m => cases he
    | _ =>
      cases he
      intro hinner
      cases hinner

/-- **What a call failed with comes out of a script** that does not catch it. -/
theorem language_propagates : language.Propagates where
  run rules location t scope := by
    let env : Env := ⟨rules, location, t.library, 0⟩
    refine (env.sound_stmts (Calls.sound_within rules.limits) t.body [] (.start scope)
      settled_nil).bind fun hs r hr => ?_
    obtain ⟨r, frame⟩ := r
    cases r with
    | ok d => exact carries_of_settled hr fun e function message he => by cases he
    | error x =>
      cases x with
      | give d => exact carries_of_settled (hr.settled (by simp)) fun e _ _ he => by cases he
      | quit place => exact carries_of_settled (hr.settled (by simp)) fun e _ _ he => by cases he
      | _ => exact hr.carries
  call rules t f args := by
    let env : Env := ⟨rules, "", t.library, 0⟩
    refine (env.sound_callPointer (Calls.sound_within rules.limits) f.name f.routine f.cells args
      none [] (.start []) settled_nil).bind fun hs r hr => ?_
    obtain ⟨r, frame⟩ := r
    cases r with
    | ok d => exact carries_of_settled hr fun e function message he => by cases he
    | error x => exact hr.carries

end PackHost.Script
