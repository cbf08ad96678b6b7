import PackHost.Proofs.Script.Computing

/-!
# Replies of calls

A call replies how it ended, and no call goes on while one that failed is not caught. The failure
comes in where the host answers a call (`Env.replies_callNative`), and every other call passes it on
as the reply. There is one lemma for each way of calling something.
-/

namespace PackHost.Script

/-! ## Calls -/

/-- Every run of a function or of a text goes on only where all failed calls are caught. -/
structure Calls.Sound (calls : Calls) : Prop where
  routine : ∀ env r args place, (calls.routine env r args place).Sound
  named : ∀ env name args place, (calls.named env name args place).Sound
  text : ∀ env text place, (calls.text env text place).Sound

/-- The call goes on only where all failed calls are caught, and its reply says how it ended. -/
def Eval.Replies (p : Eval Reply) : Prop := p.Meets Settled fun r => Fits r.1

namespace Eval

variable {α β : Type}

theorem Quiet.mapM {f : α → Eval β} (h : ∀ a, (f a).Quiet) (as : List α) :
    (as.mapM f).Quiet := by
  have hloop : ∀ bs : List β, (List.mapM.loop f as bs).Quiet := by
    induction as with
    | nil => exact fun bs => .pure _
    | cons a as ih => exact fun bs => (h a).bind fun b => ih (b :: bs)
  exact hloop []

theorem replies_error {x : Exit} (h : ∀ ms, Settled ms → Passes x ms) (d : Datum) :
    (pure (.error x, d) : Eval Reply).Replies :=
  Meets.pure h

theorem replies_fault {cause : Cause} (h : cause.isHost = false) (place : Option Source.Position)
    (d : Datum) : (pure (.error (.fault (.new cause place)), d) : Eval Reply).Replies :=
  replies_error (fun _ hms => .fault hms h) d

/-- Whatever becomes of the value, the reply is the same. -/
theorem Replies.change {p : Eval Reply} (h : p.Replies) (k : Reply → Datum) :
    Replies (p >>= fun r => pure (r.1, k r)) :=
  Meets.bind h fun _ => Meets.pure fun _ hr => hr

theorem replies_ok (d first : Datum) : (pure (.ok d, first) : Eval Reply).Replies :=
  Meets.pure fun _ hms => hms

end Eval

namespace Env

open Eval

variable {calls : Calls} (env : Env)

theorem replies_keeping (first : Datum) {p : Eval Datum} (h : p.Sound) :
    (keeping first p).Replies :=
  h.attempt.bind fun _ => Meets.pure fun _ hr => hr

section

variable (hcalls : calls.Sound)
include hcalls

theorem sound_callPointer (name : String) (routine : Option Routine) (cells : List Nat)
    (args : List Datum) (place : Option Source.Position) :
    (callPointer calls env name routine cells args place).Sound := by
  have hname : ∀ ds, (do
      let held ← cells.mapM fun cell => do return (← readCell cell).value
      calls.named env name (held ++ ds) place).Sound := fun ds =>
    (Quiet.mapM (fun cell => (quiet_readCell cell).bind fun _ => .pure _) cells).sound.bind
      fun _ => hcalls.named _ _ _ _
  unfold callPointer
  dsimp only
  split
  · split
    · exact hcalls.routine _ _ _ _
    · exact hname args
  · exact hname args

theorem sound_callForItem (name : String) (routine : Option Routine) (cells : List Nat)
    (args : List Datum) (index : Nat) (place : Option Source.Position) :
    (callForItem calls env name routine cells args index place).Sound := by
  have hcall : ∀ ds, (callPointer calls env name routine cells ds place).Sound :=
    fun ds => env.sound_callPointer hcalls name routine cells ds place
  unfold callForItem
  extract_lets call takes withIndex
  split
  · exact hcall _
  · split
    · exact hcall _
    · split
      · exact hcall _
      · refine (hcall _).attempt.bind fun r => ?_
        split
        · exact meets_catches.bind fun _ => hcall _
        · exact meets_settle r

end

/-! ## Functions of the language that call others -/

theorem sound_mapItems {f : Datum → Nat → Eval Datum} (h : ∀ d i, (f d i).Sound) (index : Nat)
    (ds : List Datum) : (mapItems f index ds).Sound := by
  induction ds generalizing index with
  | nil => exact .pure _
  | cons d ds ih => exact (h d index).bind fun _ => (ih _).bind fun _ => .pure _

theorem sound_filterItems {f : Datum → Nat → Eval Datum} (h : ∀ d i, (f d i).Sound)
    (index : Nat) (ds : List Datum) : (filterItems f index ds).Sound := by
  induction ds generalizing index with
  | nil => exact .pure _
  | cons d ds ih => exact (h d index).bind fun _ => (ih _).bind fun _ => .pure _

theorem sound_reduceItems {f : Datum → Datum → Nat → Eval Datum} (h : ∀ d e i, (f d e i).Sound)
    (index : Nat) (d : Datum) (ds : List Datum) : (reduceItems f index d ds).Sound := by
  induction ds generalizing index d with
  | nil => exact .pure _
  | cons e ds ih => exact (h d e index).bind fun _ => ih _ _

theorem sound_insertItem {isLess : Datum → Datum → Eval Bool} (h : ∀ d e, (isLess d e).Sound)
    (d : Datum) (ds : List Datum) : (insertItem isLess d ds).Sound := by
  induction ds with
  | nil => exact .pure _
  | cons e ds ih =>
    refine (h d e).bind fun less => ?_
    cases less with
    | true => exact ih.bind fun _ => .pure _
    | false => exact .pure _

theorem sound_sortItems {isLess : Datum → Datum → Eval Bool} (h : ∀ d e, (isLess d e).Sound)
    (done ds : List Datum) : (sortItems isLess done ds).Sound := by
  induction ds generalizing done with
  | nil => exact .pure _
  | cons d ds ih => exact (sound_insertItem h d done).bind fun _ => ih _

theorem sound_isBefore {f : List Datum → Eval Datum} (h : ∀ ds, (f ds).Sound) (a b : Datum) :
    (isBefore f a b).Sound := by
  refine (h [a, b]).attempt.bind fun r => ?_
  split
  · exact Meets.pure fun _ hms => hms
  · exact fun _ _ hframe => hframe
  · exact meets_catches.bind fun _ => Meets.pure fun _ hms => hms
  · next hint hcrash hfault =>
    refine Meets.pure fun ms hms => ?_
    cases r with
    | ok d => exact hms
    | error x => exact hms.settled fun f hx => hfault f (congrArg _ hx)

theorem replies_higher (hcalls : calls.Sound) {style : Style} {name : String} {args : List Datum}
    {place : Option Source.Position} {p : Eval Reply}
    (h : higher? calls env style name args place = some p) : p.Replies := by
  unfold higher? at h
  dsimp only at h
  split at h
  · cases h
    exact replies_keeping _ ((sound_mapItems (fun d i =>
      sound_callForItem _ hcalls _ _ _ _ _ _) 0 _).bind fun _ => .pure _)
  · cases h
    exact replies_keeping _ ((sound_filterItems (fun d i =>
      sound_callForItem _ hcalls _ _ _ _ _ _) 0 _).bind fun _ => .pure _)
  · cases h
    exact replies_keeping _ (sound_reduceItems (fun d e i =>
      sound_callForItem _ hcalls _ _ _ _ _ _) 0 _ _)
  · cases h
    exact replies_keeping _ (sound_reduceItems (fun d e i =>
      sound_callForItem _ hcalls _ _ _ _ _ _) 0 _ _)
  · cases h
    split
    · exact replies_fault rfl _ _
    · refine (sound_sortItems (fun d e => sound_isBefore (fun ds =>
        sound_callPointer _ hcalls _ _ _ ds _) d e) [] _).attempt.bind fun r => ?_
      cases r with
      | ok ds => exact Meets.pure fun _ hms => hms
      | error e => exact Meets.pure fun _ hms => hms
  · cases h

/-! ## Functions of the language and of the host -/

theorem replies_builtin (hcalls : calls.Sound) {style : Style} {name : String} {args : List Datum}
    {place : Option Source.Position} {p : Eval Reply}
    (h : builtin? calls env style name args place = some p) : p.Replies := by
  unfold builtin? at h
  dsimp only at h
  split at h
  · next hhigher =>
    cases h
    exact env.replies_higher hcalls hhigher
  · obtain ⟨a, ha, rfl⟩ := Option.map_eq_some_iff.mp h
    cases a with
    | value r =>
      cases isOwn_answer ha rfl with
      | ok d => exact replies_ok _ _
      | error hc => exact replies_fault hc _ _
    | change r =>
      dsimp only
      split
      · exact replies_fault rfl _ _
      · cases isOwn_answer ha rfl with
        | ok d => exact replies_ok _ _
        | error hc => exact replies_fault hc _ _
    | quit => exact replies_error (fun _ hms => .exit hms (by simp)) _

/-- **A call that failed is the fault that stands for it**, and nothing else happens after it. -/
theorem replies_replyTo (hcalls : calls.Sound) (style : Style) (name : String) (args : List Datum)
    (place : Option Source.Position) (r : Response Datum) :
    (replyTo calls env style name args place r).Meets
      (fun hs => ∃ before, hs = .response r :: before ∧ Settled before) fun x => Fits x.1 := by
  cases r with
  | answered a taken =>
    refine Meets.pure ?_
    rintro _ ⟨before, rfl, hbefore⟩
    cases a with
    | value d => exact settled_response hbefore (Language.not_fails_value language d taken)
    | crashed m =>
      exact .exit (settled_response hbefore (Language.not_fails_crashed language m taken)) (by simp)
    | raised m => exact .failed hbefore ⟨fun place => .raised m taken place, fun h => rfl⟩
    | system f m => exact .failed hbefore ⟨fun _ => .system f m taken, fun h => rfl⟩
  | own =>
    have hsettled : ∀ hs : List (Happening Datum),
        (∃ before, hs = .response .own :: before ∧ Settled before) → Settled hs := by
      rintro _ ⟨before, rfl, hbefore⟩
      exact settled_response hbefore (Language.not_fails_own language)
    unfold replyTo
    dsimp only
    split
    · next p hp => exact (env.replies_builtin hcalls hp).imp hsettled fun _ _ h => h
    · exact (replies_fault rfl _ _).imp hsettled fun _ _ h => h
  | fixed =>
    refine Meets.pure ?_
    rintro _ ⟨before, rfl, hbefore⟩
    exact .failed hbefore ⟨fun place => .fixed _ place, fun h => rfl⟩
  | missing =>
    refine Meets.pure ?_
    rintro _ ⟨before, rfl, hbefore⟩
    exact .failed hbefore ⟨fun place => .missing _ place, fun h => rfl⟩

theorem replies_callNative (hcalls : calls.Sound) (style : Style) (name : String)
    (args : List Datum) (place : Option Source.Position) :
    (callNative calls env style name args place).Replies := by
  have hask : (ask (.call name style.isFixed args .done)).Meets Settled fun r hs =>
      ∃ before, hs = .response r :: before ∧ Settled before :=
    fun hs _ hcourse r => ⟨hs, rfl, hcourse⟩
  refine hask.bind fun r => (env.replies_replyTo hcalls style name args place r).bind fun x => ?_
  obtain ⟨x, d⟩ := x
  cases x with
  | ok e => exact Meets.pure fun _ hms => hms
  | error x => exact Meets.pure fun _ hms => hms.fillPlace place

theorem replies_callNamed (hcalls : calls.Sound) (style : Style) (name : String)
    (args : List Datum) (place : Option Source.Position) :
    (callNamed calls env style name args place).Replies := by
  unfold callNamed
  dsimp only
  split
  · exact replies_ok _ _
  · split
    · exact replies_keeping _ (hcalls.routine _ _ _ _)
    · exact env.replies_callNative hcalls _ _ _ _

theorem replies_callMethod (hcalls : calls.Sound) (constant : Bool) (d : Datum) (name : String)
    (args : List Datum) (place : Option Source.Position) :
    (callMethod calls env constant d name args place).Replies := by
  unfold callMethod
  dsimp only
  split
  · exact replies_keeping _ (env.sound_callPointer hcalls _ _ _ _ _)
  · exact replies_keeping _ (env.sound_callPointer hcalls _ _ _ _ _)
  · exact replies_keeping _ (sound_fail rfl _)
  · exact replies_keeping _ (sound_fail rfl _)
  · split
    · exact replies_keeping _ (env.sound_callPointer hcalls _ _ _ _ _)
    · exact env.replies_callNamed hcalls _ _ _ _
  · exact env.replies_callNamed hcalls _ _ _ _

/-! ## Parts of values -/

theorem replies_perform (purpose : Purpose) (d : Datum) :
    (pure (purpose.perform d) : Eval Reply).Replies := by
  refine Meets.pure fun ms hms => ?_
  unfold Purpose.perform
  split
  · exact hms
  · exact hms
  · split
    · exact hms
    · next hcombine =>
      cases isOwn_combine hcombine with
      | error hc => exact .fault hms hc
    · exact .fault hms rfl

theorem replies_refuseAt {cause : Cause} (h : cause.isHost = false) (d : Datum)
    (place : Source.Position) : (refuseAt d cause place : Eval Reply).Replies :=
  replies_fault h _ _

theorem isHost_refusal (purpose : Purpose) (name type : String) :
    (purpose.refusal name type).isHost = false := by
  unfold Purpose.refusal
  split <;> rfl

theorem replies_follow (hcalls : calls.Sound) (purpose : Purpose) (constant : Bool)
    (steps : List Step) (d : Datum) : (follow calls env purpose constant steps d).Replies := by
  induction steps generalizing constant d with
  | nil => exact replies_perform purpose d
  | cons step rest ih =>
    cases step with
    | method name args place =>
      refine (env.replies_callMethod hcalls _ _ _ _ _).bind fun r => ?_
      obtain ⟨r, d'⟩ := r
      cases r with
      | ok e => exact Replies.change (ih false e) _
      | error x => exact Meets.pure fun _ hr => hr
    | property name place =>
      unfold follow
      split
      · split
        · exact Replies.change (ih _ _) _
        · exact Replies.change (ih _ _) _
      · split
        · exact replies_refuseAt (isHost_refusal ..) _ _
        · split
          · exact Replies.change (ih _ _) _
          · exact replies_refuseAt rfl _ _
    | index i place =>
      unfold follow
      split
      · split
        · exact Replies.change (ih _ _) _
        · exact replies_refuseAt rfl _ _
      · split
        · exact Replies.change (ih _ _) _
        · exact Replies.change (ih _ _) _
      · split
        · refine (ih _ _).bind fun r => ?_
          obtain ⟨r, e⟩ := r
          cases r with
          | error x => exact Meets.pure fun _ hr => hr
          | ok d =>
            cases e with
            | char c => exact replies_ok _ _
            | _ => exact replies_refuseAt rfl _ _
        · exact replies_refuseAt rfl _ _
      all_goals exact replies_refuseAt rfl _ _

/-- Puts back what a call made of a value, and ends as the call did. -/
theorem sound_followFrom (hcalls : calls.Sound) (purpose : Purpose) (v : Mention)
    (steps : List Step) : (followFrom calls env purpose v steps).Sound := by
  have hrest : ∀ s : Sight, (do
      let r ← follow calls env purpose s.constant steps s.value
      if !s.constant then store v.name r.2
      settle r.1).Sound := by
    intro s
    refine (env.replies_follow hcalls purpose s.constant steps s.value).bind fun r => ?_
    split
    · exact ((quiet_store v.name r.2).meets _).bind fun _ => meets_settle r.1
    · exact meets_settle r.1
  refine (env.sound_lookUp v).bind fun s => ?_
  dsimp only
  split
  · exact (sound_fail rfl _).bind fun _ => hrest s
  · exact hrest s

end Env

end PackHost.Script
