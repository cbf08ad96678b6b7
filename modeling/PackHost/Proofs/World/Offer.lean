import PackHost.Proofs.World.Console
import PackHost.Proofs.World.Dispatch
import PackHost.Proofs.World.Writings

/-!
# Calls of the functions that a desk offers

`World.Offers` says which handles are those of the functions of a desk; they stay so whatever
happens. A post is described by the calls of the handlers: `Runner.Serves` lists what each of them
did and how it ended, and `Serves.lines` what that adds to the console. The main statement is
`call_offered`: a call with the wrong arguments does nothing at all, and a post has its answer
whatever the handlers do.
-/

namespace PackHost

variable {ω γ : Type}

/-! ## Functions of a desk -/

/-- The arguments that the function is made for. -/
inductive DeskRole.Takes : DeskRole → List Value → Prop
  | log (v : Value) : Takes .log [v]
  | logError (v : Value) : Takes .logError [v]
  | onEvent (event : String) (g : Function) : Takes .onEvent [.text event, .function g]
  | postEvent (event : String) (payload : Value) : Takes .postEvent [.text event, payload]

/-- The handles are those of the functions of the desk. -/
structure World.Offers (w : World ω γ) (d : Nat) (handle : DeskRole → Function) : Prop where
  code : ∀ role, w.functions[(handle role).id]? = some (.desk d role)
  name : ∀ role, (handle role).name = role.name
  arity : ∀ role, (handle role).arity = some role.arity

theorem Act.functions_apply (a : Act ω γ) {w : World ω γ} {i : Nat} {c : Code ω γ}
    (h : w.functions[i]? = some c) : (a.apply w).functions[i]? = some c := by
  have hsay : ∀ e level text, (w.say e level text).functions = w.functions := by
    intro e level text
    unfold World.say
    cases (w.desk e).sink <;> rfl
  cases a with
  | made code =>
    have hlt : i < w.functions.size := (Array.getElem?_eq_some_iff.mp h).1
    show (w.functions.push _)[i]? = some c
    rw [Array.getElem?_push, if_neg (Nat.ne_of_lt hlt)]
    exact h
  | told e level message => rwa [apply, hsay]
  | left e event g ended =>
    rcases g.2.settle_cases e event ended w with hs | ⟨entry, hs⟩ | ⟨text, hs⟩
    · rwa [apply, hs]
    · rwa [apply, hs]
    · rwa [apply, hs, hsay]
  | listened e event l => cases l <;> exact h
  | put s => exact h
  | removed e ids => exact h
  | cleared e => exact h
  | noted entry => exact h
  | posted e event payload => exact h
  | entered e event g => exact h
  | closed e event => exact h

namespace World

/-- The functions that are bound for a load are those of the desk. -/
theorem offers_collect (w : World ω γ) (d : Nat) (kind : ScriptKind) :
    (w.collect d kind).2.Offers d w.roleHandle where
  code := w.functions_collect d kind
  name _ := rfl
  arity _ := rfl

theorem Offers.replay {w : World ω γ} {d : Nat} {handle : DeskRole → Function}
    (h : w.Offers d handle) (as : List (Act ω γ)) : (replay as w).Offers d handle := by
  induction as generalizing w with
  | nil => exact h
  | cons a as ih =>
    refine ih ⟨fun role => ?_, h.name, h.arity⟩
    exact a.functions_apply (h.code role)

/-- A registration adds one handler and one number, and changes nothing else. -/
theorem desk_listenOwned {w : World ω γ} {d : Nat} (seated : d < w.desks.size) (event : String)
    (g : Function) (e : Nat) :
    (w.listenOwned d event g).desk e =
      if e = d then { w.desk d with
        bus := (w.desk d).bus.listen event (.script g)
        owned := (w.desk d).bus.next :: (w.desk d).owned }
      else w.desk e := by
  rw [listenOwned, desk_changeDesk]
  by_cases he : e = d
  · subst he
    simp [seated]
  · simp [he, Ne.symm he]

end World

/-! ## Calls of handlers -/

structure HandlerCall (ω γ : Type) where
  handler : Nat × Listener
  acts : List (Act ω γ)
  ended : Outcome Value

namespace HandlerCall

/-- The acts of the call, with the marks of its beginning and its end. -/
def course (d : Nat) (event : String) (v : HandlerCall ω γ) : List (Act ω γ) :=
  .entered d event v.handler :: v.acts ++ [.left d event v.handler v.ended]

/-- What is written on the console of the desk: the lines of the call itself, and then an error line
if the handler is one of a script and has failed. -/
def lines (d : Nat) (k : Desk) (event : String) (v : HandlerCall ω γ) : List Line :=
  v.acts.filterMap (Act.line? d k) ++ (v.handler.2.complaint? event v.ended).toList

theorem lines_eq (d : Nat) (k : Desk) (event : String) (v : HandlerCall ω γ) :
    v.lines d k event = (v.course d event).filterMap (Act.line? d k) := by
  have hentered : (Act.entered d event v.handler : Act ω γ).line? d k = none := rfl
  have hleft : (Act.left d event v.handler v.ended : Act ω γ).line? d k =
      v.handler.2.complaint? event v.ended := if_pos rfl
  rw [lines, course, List.cons_append, List.filterMap_cons_none hentered, List.filterMap_append]
  cases h : v.handler.2.complaint? event v.ended <;> simp [hleft, h]

end HandlerCall

namespace Runner

def inner (r : Runner ω γ) : Runner ω γ := ⟨r.invoke, r.depth - 1⟩

/-- The handlers are called one after another, each with the payload in the world that the one
before has left, however that one ended. -/
inductive Serves (r : Runner ω γ) (d : Nat) (event : String) (payload : Value) :
    List (Nat × Listener) → World ω γ → List (HandlerCall ω γ) → World ω γ → Prop
  | nil (w : World ω γ) : Serves r d event payload [] w [] w
  | cons {g : Nat × Listener} {gs : List (Nat × Listener)} {w w' : World ω γ}
      {acts : List (Act ω γ)} {ended : Outcome Value} {cs : List (HandlerCall ω γ)} :
      r.report g.2.target [payload] w = some (ended, acts) →
      Serves r d event payload gs (g.2.settle d event ended (replay acts w)) cs w' →
      Serves r d event payload (g :: gs) w (⟨g, acts, ended⟩ :: cs) w'

namespace Serves

variable {r : Runner ω γ} {d : Nat} {event : String} {payload : Value}
  {gs : List (Nat × Listener)} {w w' : World ω γ} {cs : List (HandlerCall ω γ)}

theorem handlers (h : r.Serves d event payload gs w cs w') : cs.map HandlerCall.handler = gs := by
  induction h with
  | nil w => rfl
  | cons hcall hrest ih => rw [List.map_cons, ih]

theorem replay_course (h : r.Serves d event payload gs w cs w') :
    replay (cs.flatMap (HandlerCall.course d event)) w = w' := by
  induction h with
  | nil w => rfl
  | cons hcall hrest ih => simpa [HandlerCall.course, Act.apply] using ih

theorem lines (h : r.Serves d event payload gs w cs w') (seated : d < w.desks.size) :
    (w'.desk d).lines = (cs.flatMap (HandlerCall.lines d (w.desk d) event)).reverse ++
      (w.desk d).lines := by
  have hlines : cs.flatMap (HandlerCall.lines d (w.desk d) event) =
      (cs.flatMap (HandlerCall.course d event)).filterMap (Act.line? d (w.desk d)) := by
    rw [List.filterMap_flatMap]
    exact congrArg (cs.flatMap ·) (funext fun v => v.lines_eq d _ event)
  rw [hlines, ← h.replay_course, lines_replay _ seated]

end Serves

/-- A dispatch calls all handlers, or those up to one whose call has no end. -/
theorem serves_of_dispatch (r : Runner ω γ) (d : Nat) (event : String) (payload : Value)
    (gs : List (Nat × Listener)) (w : World ω γ) :
    (∃ cs w', dispatch r.call d event payload (gs.map Prod.snd) w = some w' ∧
      r.Serves d event payload gs w cs w') ∨
    (dispatch r.call d event payload (gs.map Prod.snd) w = none ∧
      ∃ before g after cs w', gs = before ++ g :: after ∧
        r.Serves d event payload before w cs w' ∧ r.call g.2.target [payload] w' = none) := by
  induction gs generalizing w with
  | nil => exact .inl ⟨[], w, rfl, .nil w⟩
  | cons g gs ih =>
    have hforget := r.forget_report g.2.target [payload] w
    cases hreport : r.report g.2.target [payload] w with
    | none =>
      have hcall : r.call g.2.target [payload] w = none := by
        rw [← hforget, Journal.forget, hreport]
        rfl
      refine .inr ⟨?_, [], g, gs, [], w, rfl, .nil w, hcall⟩
      simp only [List.map_cons, dispatch, hcall]
    | some s =>
      obtain ⟨ended, acts⟩ := s
      have hcall : r.call g.2.target [payload] w = some (ended, replay acts w) := by
        rw [← hforget, Journal.forget, hreport]
        rfl
      simp only [List.map_cons, dispatch, hcall]
      rcases ih (g.2.settle d event ended (replay acts w)) with
        ⟨cs, w', hrest, hcs⟩ | ⟨hrest, before, g', after, cs, w', hgs, hcs, hnone⟩
      · exact .inl ⟨_, w', hrest, .cons hreport hcs⟩
      · refine .inr ⟨hrest, g :: before, g', after, _, w', ?_, .cons hreport hcs, hnone⟩
        rw [hgs, List.cons_append]

/-! ## Calls -/

section

variable {r : Runner ω γ} {w : World ω γ} {d : Nat} {handle : DeskRole → Function}

/-- A call is what stands behind the handle, once the arguments are counted. -/
theorem call_eq_perform (deep : 0 < r.depth) (f : Function) (args : List Value) :
    r.call f args w = match f.arity with
      | none => perform r.invoke r.inner.call f args w
      | some expected =>
        if args.length = expected then perform r.invoke r.inner.call f args w
        else some (.failed (arityFailure f expected args.length), w) := by
  obtain ⟨n, hn⟩ : ∃ n, r.depth = n + 1 := ⟨r.depth - 1, by omega⟩
  have hinner : r.inner.depth = n := by simp [inner, hn]
  simp only [call, hn, hinner, callAt]
  rfl

/-- A function of an engine does what the engine makes of it. -/
theorem call_closure (deep : 0 < r.depth) {g : Function} {code : γ}
    (hcode : w.functions[g.id]? = some (.closure code)) (harity : g.arity = none)
    (args : List Value) : r.call g args w = r.inner.run (r.invoke code args) w := by
  rw [r.call_eq_perform deep, harity]
  simp only [perform, hcode]
  rfl

theorem call_handle (deep : 0 < r.depth) (offers : w.Offers d handle) (role : DeskRole)
    (args : List Value) :
    r.call (handle role) args w =
      if args.length = role.arity then role.perform r.inner.call d args w
      else some (.failed (arityFailure (handle role) role.arity args.length), w) := by
  rw [r.call_eq_perform deep, offers.arity]
  simp only [perform, offers.code]

/-- What is no text is refused as the name of an event. -/
theorem eventName_cases (function : String) (v : Value) :
    (∃ event, v = .text event) ∨ eventName function v = .error (.runtime
      (function ++ " expects " ++ "an event name string" ++ ", got " ++ v.kindName) none) := by
  cases v with
  | text event => exact .inl ⟨event, rfl⟩
  | _ => exact .inr (by simp [eventName, String.append_assoc])

/-- Arguments in the right number but of wrong types change nothing. -/
theorem perform_of_not_takes (call : Caller ω γ) (role : DeskRole) {args : List Value}
    (hcount : args.length = role.arity) (htypes : ¬role.Takes args) :
    ∃ v ∈ args, ∃ wanted ∈ ["an event name string", "a function"],
      role.perform call d args w = some (.failed
        (.runtime (role.name ++ " expects " ++ wanted ++ ", got " ++ v.kindName) none), w) := by
  match role, args, hcount with
  | .log, [v], _ => exact absurd (.log v) htypes
  | .logError, [v], _ => exact absurd (.logError v) htypes
  | .onEvent, [name, handler], _ =>
    rcases eventName_cases "onEvent" name with ⟨event, rfl⟩ | hname
    · refine ⟨handler, by simp, "a function", by simp, ?_⟩
      cases handler with
      | function g => exact absurd (.onEvent event g) htypes
      | _ => rfl
    · refine ⟨name, by simp, "an event name string", by simp, ?_⟩
      simp only [DeskRole.perform, hname]
      rfl
  | .postEvent, [name, payload], _ =>
    rcases eventName_cases "postEvent" name with ⟨event, rfl⟩ | hname
    · exact absurd (.postEvent event payload) htypes
    · refine ⟨name, by simp, "an event name string", by simp, ?_⟩
      simp only [DeskRole.perform, hname]
      rfl

/-- A post calls the handlers that its event has when it begins, and its answer is how many they
are; only a call without an end keeps it from its own. -/
theorem postWith_serves (r : Runner ω γ) (w : World ω γ) (d : Nat) (event : String)
    (payload : Value) :
    let handlers := (w.desk d).bus.registered event
    (∃ cs w', postWith r.call d event payload w = some (handlers.length, w') ∧
      r.Serves d event payload handlers w cs w') ∨
    (postWith r.call d event payload w = none ∧
      ∃ before g after cs w', handlers = before ++ g :: after ∧
        r.Serves d event payload before w cs w' ∧ r.call g.2.target [payload] w' = none) := by
  intro handlers
  have hpost : postWith r.call d event payload w =
      (dispatch r.call d event payload (handlers.map Prod.snd) w).map fun w' =>
        (handlers.length, w') := by
    rw [postWith, Event.Bus.handlers, List.length_map]
  rw [hpost]
  rcases r.serves_of_dispatch d event payload handlers w with
    ⟨cs, w', hdone, hcs⟩ | ⟨hnone, hstuck⟩
  · rw [hdone]
    exact .inl ⟨cs, w', rfl, hcs⟩
  · rw [hnone]
    exact .inr ⟨rfl, hstuck⟩

theorem call_postEvent (deep : 0 < r.depth) (offers : w.Offers d handle) (event : String)
    (payload : Value) :
    let handlers := (w.desk d).bus.registered event
    (∃ cs w', r.call (handle .postEvent) [.text event, payload] w =
        some (.done (.int (Int64.ofNat handlers.length)), w') ∧
      r.inner.Serves d event payload handlers w cs w') ∨
    (r.call (handle .postEvent) [.text event, payload] w = none ∧
      ∃ before g after cs w', handlers = before ++ g :: after ∧
        r.inner.Serves d event payload before w cs w' ∧
        r.inner.call g.2.target [payload] w' = none) := by
  intro handlers
  have hpost : r.call (handle .postEvent) [.text event, payload] w =
      (postWith r.inner.call d event payload w).map fun n =>
        (.done (.int (Int64.ofNat n.1)), n.2) := by
    rw [r.call_handle deep offers]
    rfl
  rw [hpost]
  rcases r.inner.postWith_serves w d event payload with ⟨cs, w', hdone, hcs⟩ | ⟨hnone, hstuck⟩
  · rw [hdone]
    exact .inl ⟨cs, w', rfl, hcs⟩
  · rw [hnone]
    exact .inr ⟨rfl, hstuck⟩

end

/-- **Calls of the functions of a desk do all or nothing, and shield the caller.** A wrong number of
arguments is a failure of the host, arguments of wrong types are a failure of the script, and
neither changes anything in the world. Otherwise `log` and `logError` write one line. `onEvent` adds
one handler, at the end of those of its event and of no other, and its number, which no handler has,
to those of the registrations by scripts. `postEvent` answers how many handlers the event had when
it was called, however they end: it calls them all in their order, and the console gains for each of
them what its call writes and then one error line for this event if it is one of a script and
failed. The answer is never a failure; there is none only if the call of a handler has no end. -/
theorem call_offered (r : Runner ω γ) {w : World ω γ} {d : Nat} {handle : DeskRole → Function}
    (deep : 0 < r.depth) (seated : d < w.desks.size) (offers : w.Offers d handle) :
    (∀ role args, args.length ≠ role.arity →
      r.call (handle role) args w = some (.failed (.host (role.name ++ " expects " ++
        toString role.arity ++ " argument(s), got " ++ toString args.length)), w)) ∧
    (∀ role args, args.length = role.arity → ¬role.Takes args →
      ∃ v ∈ args, ∃ wanted ∈ ["an event name string", "a function"],
        r.call (handle role) args w = some (.failed (.runtime
          (role.name ++ " expects " ++ wanted ++ ", got " ++ v.kindName) none), w)) ∧
    (∀ v, r.call (handle .log) [v] w =
        some (.done .unit, w.say d .info ((w.desk d).annotate v.shown)) ∧
      r.call (handle .logError) [v] w =
        some (.done .unit, w.say d .error ((w.desk d).annotate v.shown))) ∧
    (∀ event g, ∃ w',
      let number := (w.desk d).bus.next
      r.call (handle .onEvent) [.text event, .function g] w = some (.done .unit, w') ∧
      (∀ e, (w'.desk d).bus.registered e =
        (w.desk d).bus.registered e ++ if event = e then [(number, .script g)] else []) ∧
      ((w.desk d).bus.Reachable → ∀ e, ∀ h ∈ (w.desk d).bus.registered e, h.1 < number) ∧
      (w'.desk d).owned = number :: (w.desk d).owned ∧
      (w'.desk d).lines = (w.desk d).lines ∧ w'.log = w.log ∧
      ∀ e, e ≠ d → w'.desk e = w.desk e) ∧
    (∀ event payload,
      let handlers := (w.desk d).bus.registered event
      (∃ cs w', r.call (handle .postEvent) [.text event, payload] w =
          some (.done (.int (Int64.ofNat handlers.length)), w') ∧
        r.inner.Serves d event payload handlers w cs w' ∧ cs.map HandlerCall.handler = handlers ∧
        (w'.desk d).lines = (cs.flatMap (HandlerCall.lines d (w.desk d) event)).reverse ++
          (w.desk d).lines) ∨
      (r.call (handle .postEvent) [.text event, payload] w = none ∧
        ∃ before g after cs w', handlers = before ++ g :: after ∧
          r.inner.Serves d event payload before w cs w' ∧
          r.inner.call g.2.target [payload] w' = none)) := by
  have hcounted : ∀ role (args : List Value), args.length = role.arity →
      r.call (handle role) args w = role.perform r.inner.call d args w := by
    intro role args hcount
    rw [r.call_handle deep offers, if_pos hcount]
  refine ⟨fun role args hcount => ?_, fun role args hcount htypes => ?_, fun v => ⟨?_, ?_⟩,
    fun event g => ⟨w.listenOwned d event g, ?_, fun e => ?_, fun hreach e h hh => ?_, ?_, ?_, rfl,
      fun e he => ?_⟩, fun event payload => ?_⟩
  · rw [r.call_handle deep offers, if_neg hcount, arityFailure, offers.name]
  · rw [hcounted role args hcount]
    exact perform_of_not_takes r.inner.call role hcount htypes
  · rw [hcounted .log [v] rfl]
    rfl
  · rw [hcounted .logError [v] rfl]
    rfl
  · rw [hcounted .onEvent _ rfl]
    rfl
  · rw [World.desk_listenOwned seated, if_pos rfl, Event.Bus.registered_listen]
    split <;> simp
  · exact hreach.sound.given e h hh
  · rw [World.desk_listenOwned seated, if_pos rfl]
  · rw [World.desk_listenOwned seated, if_pos rfl]
  · rw [World.desk_listenOwned seated, if_neg he]
  · intro handlers
    rcases r.call_postEvent deep offers event payload with ⟨cs, w', hdone, hcs⟩ | hstuck
    · exact .inl ⟨cs, w', hdone, hcs, hcs.handlers, hcs.lines seated⟩
    · exact .inr hstuck

end Runner

/-- A world with two functions of the host, of which one fails and one crashes. -/
def World.faulty : World Unit Empty :=
  let fails : Native Unit Empty := fun _ => .done (.failed (.host "out of order"))
  let crashes : Native Unit Empty := fun _ => .done (.crashed none)
  (((World.fresh ()).addDesk .kept).define (.native fails)).define (.native crashes)

/-- The world after the namespace of a load was written there and four handlers of an event were
registered, three of them by scripts: one fails, one crashes, and one writes the payload. -/
def World.attended : World Unit Empty :=
  replay [.listened 0 "tick" (.script ⟨"fails", none, 0⟩),
      .listened 0 "tick" (.script ⟨"crashes", none, 1⟩),
      .listened 0 "tick" (.host ⟨"fails", none, 0⟩),
      .listened 0 "tick" (.script (World.faulty.roleHandle .log))]
    (World.faulty.collect 0 .server).2

/-- A post answers that four handlers were called, although two of them fail and one crashes; the
one of a script that fails is reported, and the last one writes the payload. Wrong arguments are
refused. -/
theorem Runner.call_offered_attended :
    (∃ w', plain.call (World.faulty.roleHandle .postEvent) [.text "tick", .text "now"]
        World.attended = some (.done (.int 4), w') ∧
      (w'.desk 0).lines = [⟨.info, "now"⟩,
        ⟨.error, "Error in 'tick' event handler: host binding failed: out of order"⟩]) ∧
    plain.call (World.faulty.roleHandle .onEvent) [.text "tick"] World.attended =
      some (.failed (.host "onEvent expects 2 argument(s), got 1"), World.attended) ∧
    ∃ v ∈ [Value.unit, .text "now"], ∃ wanted ∈ ["an event name string", "a function"],
      plain.call (World.faulty.roleHandle .postEvent) [.unit, .text "now"] World.attended =
        some (.failed (.runtime ("postEvent expects " ++ wanted ++ ", got " ++ v.kindName) none),
          World.attended) := by
  have deep : 0 < plain.depth := by decide
  have seated : 0 < World.attended.desks.size := by decide
  have offers : World.attended.Offers 0 World.faulty.roleHandle :=
    (World.faulty.offers_collect 0 .server).replay _
  obtain ⟨hcount, htypes, -, -, hpost⟩ := plain.call_offered deep seated offers
  refine ⟨?_, hcount .onEvent [.text "tick"] (by decide), ?_⟩
  · have hlines : (plain.call (World.faulty.roleHandle .postEvent) [.text "tick", .text "now"]
        World.attended).map (fun s => (s.2.desk 0).lines) = some [⟨.info, "now"⟩,
          ⟨.error, "Error in 'tick' event handler: host binding failed: out of order"⟩] := by
      decide +kernel
    rcases hpost "tick" (.text "now") with ⟨cs, w', hdone, -⟩ | ⟨hnone, -⟩
    · rw [hdone] at hlines
      exact ⟨w', hdone, Option.some.inj hlines⟩
    · rw [hnone] at hlines
      cases hlines
  · refine htypes .postEvent [.unit, .text "now"] rfl ?_
    intro h
    cases h

end PackHost
