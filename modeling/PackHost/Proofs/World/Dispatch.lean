import PackHost.Proofs.World.Desk
import PackHost.Proofs.World.Journal

/-!
# The course of a post

`Rounds` lists what a post does: one round for each registration that its event had when the post
began, in order, each round being a call of the handler with everything that the call does.
`Orderly` says that all posts among some acts, nested ones included, go that way, each with the
registrations that all the acts before it have left. The main statement is `post_rounds`.
-/

namespace PackHost

variable {ω γ α β : Type}

mutual

/-- Acts in which every post, wherever it is nested, makes the rounds of the handlers that are
registered for its event in the world in which the post begins. -/
inductive Orderly (invoke : γ → Native ω γ) : World ω γ → List (Act ω γ) → Prop
  | nil (w : World ω γ) : Orderly invoke w []
  | act {w : World ω γ} {a : Act ω γ} : a.isMark = false → Orderly invoke w [a]
  | append {w : World ω γ} {as bs : List (Act ω γ)} :
      Orderly invoke w as → Orderly invoke (replay as w) bs → Orderly invoke w (as ++ bs)
  | post {w : World ω γ} {d : Nat} {event : String} {payload : Value} {body : List (Act ω γ)} :
      Rounds invoke d event payload ((w.desk d).bus.registered event) w body →
      Orderly invoke w (.posted d event payload :: body ++ [.closed d event])

/-- A round for each of the given registrations, one after another: the handler is called with the
payload in the world that the round before has left, however that one ended. -/
inductive Rounds (invoke : γ → Native ω γ) :
    Nat → String → Value → List (Nat × Listener) → World ω γ → List (Act ω γ) → Prop
  | nil {d : Nat} {event : String} {payload : Value} {w : World ω γ} :
      Rounds invoke d event payload [] w []
  | cons {d : Nat} {event : String} {payload : Value} {g : Nat × Listener}
      {gs : List (Nat × Listener)} {w : World ω γ} {depth : Nat} {ended : Outcome Value}
      {inner rest : List (Act ω γ)} :
      Journal.callAt invoke depth g.2.target [payload] w = some (ended, inner) →
      Orderly invoke w inner →
      Rounds invoke d event payload gs ((Act.left d event g ended).apply (replay inner w)) rest →
      Rounds invoke d event payload (g :: gs) w
        (.entered d event g :: inner ++ .left d event g ended :: rest)

end

namespace Journal

/-- Whatever the computation does is orderly. -/
def IsOrderly (invoke : γ → Native ω γ) (x : Journal ω γ α) : Prop :=
  ∀ w a as, x w = some (a, as) → Orderly invoke w as

section

variable {invoke : γ → Native ω γ}

theorem isOrderly_pure (a : α) : IsOrderly invoke (pure a : Journal ω γ α) := by
  intro w b as h
  cases h
  exact .nil w

theorem isOrderly_stuck : IsOrderly invoke (stuck : Journal ω γ α) := by
  intro w b as h
  cases h

theorem isOrderly_ask (f : World ω γ → α) : IsOrderly invoke (ask f) := by
  intro w b as h
  cases h
  exact .nil w

theorem isOrderly_act {a : Act ω γ} (ha : a.isMark = false) : IsOrderly invoke (act a) := by
  intro w b as h
  cases h
  exact .act ha

theorem bind_eq_some {x : Journal ω γ α} {f : α → Journal ω γ β} {w : World ω γ} {b : β}
    {cs : List (Act ω γ)} (h : x.bind f w = some (b, cs)) :
    ∃ a as bs, x w = some (a, as) ∧ f a (replay as w) = some (b, bs) ∧ cs = as ++ bs := by
  obtain ⟨⟨a, as⟩, hx, h⟩ := Option.bind_eq_some_iff.mp h
  obtain ⟨⟨b', bs⟩, hf, h⟩ := Option.map_eq_some_iff.mp h
  cases h
  exact ⟨a, as, bs, hx, hf, rfl⟩

theorem isOrderly_bind {x : Journal ω γ α} {f : α → Journal ω γ β} (hx : IsOrderly invoke x)
    (hf : ∀ a, IsOrderly invoke (f a)) : IsOrderly invoke (x.bind f) := by
  intro w b cs h
  obtain ⟨a, as, bs, hxa, hfb, rfl⟩ := bind_eq_some h
  exact .append (hx w a as hxa) (hf a _ b bs hfb)

end

/-! ## Every call is orderly -/

section

variable {invoke : γ → Native ω γ} {n : Nat}
  (ih : ∀ f args, IsOrderly invoke (callAt invoke n f args))
include ih

theorem rounds_of_dispatch {d : Nat} {event : String} {payload : Value}
    {gs : List (Nat × Listener)} {w : World ω γ} {body : List (Act ω γ)}
    (h : dispatch (callAt invoke n) d event payload gs w = some ((), body)) :
    Rounds invoke d event payload gs w body := by
  induction gs generalizing w body with
  | nil =>
    cases h
    exact .nil
  | cons g gs ihg =>
    obtain ⟨_, _, _, hentered, hcall, rfl⟩ := bind_eq_some h
    obtain ⟨ended, inner, _, hinner, hleft, rfl⟩ := bind_eq_some hcall
    obtain ⟨_, _, rest, hmark, hrest, rfl⟩ := bind_eq_some hleft
    cases hentered
    cases hmark
    exact .cons hinner (ih _ _ _ _ _ hinner) (ihg hrest)

theorem post_eq_some {d : Nat} {event : String} {payload : Value} {w : World ω γ} {k : Nat}
    {as : List (Act ω γ)} (h : post (callAt invoke n) d event payload w = some (k, as)) :
    k = ((w.desk d).bus.registered event).length ∧
      ∃ body, as = .posted d event payload :: body ++ [.closed d event] ∧
        Rounds invoke d event payload ((w.desk d).bus.registered event) w body := by
  obtain ⟨gs, _, _, hasked, hpost, rfl⟩ := bind_eq_some h
  obtain ⟨_, _, _, hposted, hdispatch, rfl⟩ := bind_eq_some hpost
  obtain ⟨_, body, _, hbody, hend, rfl⟩ := bind_eq_some hdispatch
  obtain ⟨_, _, _, hclosed, hlength, rfl⟩ := bind_eq_some hend
  cases hasked
  cases hposted
  cases hclosed
  cases hlength
  exact ⟨rfl, body, rfl, rounds_of_dispatch ih hbody⟩

theorem isOrderly_post (d : Nat) (event : String) (payload : Value) :
    IsOrderly invoke (post (callAt invoke n) d event payload) := by
  intro w k as h
  obtain ⟨_, body, rfl, hbody⟩ := post_eq_some ih h
  exact .post hbody

theorem isOrderly_answer (d : Nat) (request : BusRequest) :
    IsOrderly invoke (answer (callAt invoke n) d request) := by
  cases request with
  | listen event handler =>
    rw [answer]
    refine isOrderly_bind (isOrderly_ask _) fun _ => ?_
    exact isOrderly_bind (isOrderly_act rfl) fun _ => isOrderly_pure _
  | remove ids =>
    rw [answer]
    refine isOrderly_bind (isOrderly_ask _) fun _ => ?_
    exact isOrderly_bind (isOrderly_act rfl) fun _ => isOrderly_pure _
  | clear => exact isOrderly_bind (isOrderly_act rfl) fun _ => isOrderly_pure _
  | count event => exact isOrderly_ask _
  | post event payload => exact isOrderly_post ih d event payload

theorem isOrderly_run (p : Program ω γ α) : IsOrderly invoke (run (callAt invoke n) p) := by
  induction p with
  | done a => exact isOrderly_pure a
  | stuck => exact isOrderly_stuck
  | get next ihp => exact isOrderly_bind (isOrderly_ask _) ihp
  | set s next ihp => exact isOrderly_bind (isOrderly_act rfl) fun _ => ihp
  | call f args next ihp => exact isOrderly_bind (ih f args) ihp
  | create name arity code next ihp =>
    refine isOrderly_bind (isOrderly_ask _) fun f => ?_
    exact isOrderly_bind (isOrderly_act rfl) fun _ => ihp f
  | bus d request next ihp => exact isOrderly_bind (isOrderly_answer ih d request) ihp

theorem isOrderly_role (d : Nat) (r : DeskRole) (args : List Value) :
    IsOrderly invoke (role (callAt invoke n) d r args) := by
  unfold role
  split
  · exact isOrderly_bind (isOrderly_act rfl) fun _ => isOrderly_pure _
  · exact isOrderly_bind (isOrderly_act rfl) fun _ => isOrderly_pure _
  · split
    · exact isOrderly_pure _
    · exact isOrderly_bind (isOrderly_act rfl) fun _ => isOrderly_pure _
    · exact isOrderly_pure _
  · split
    · exact isOrderly_pure _
    · exact isOrderly_bind (isOrderly_post ih d _ _) fun _ => isOrderly_pure _
  · exact isOrderly_pure _

theorem isOrderly_perform (f : Function) (args : List Value) :
    IsOrderly invoke (perform (callAt invoke n) invoke f args) := by
  refine isOrderly_bind (isOrderly_ask _) fun code => ?_
  match code with
  | none => exact isOrderly_pure _
  | some (.native body) => exact isOrderly_run ih (body args)
  | some (.closure code) => exact isOrderly_run ih (invoke code args)
  | some (.desk d r) => exact isOrderly_role ih d r args

end

theorem isOrderly_callAt (invoke : γ → Native ω γ) (n : Nat) (f : Function) (args : List Value) :
    IsOrderly invoke (callAt invoke n f args) := by
  -- the calls that a call makes have one level less, so the invariant is about all calls at a level
  induction n generalizing f args with
  | zero => exact isOrderly_stuck
  | succ n ih =>
    unfold callAt
    split
    · exact isOrderly_perform ih f args
    · split
      · exact isOrderly_perform ih f args
      · exact isOrderly_pure _

end Journal

/-! ## Who is called -/

/-- The handlers that are called among the acts, apart from those that posts within the acts call;
`depth` is how many such posts are open. -/
def invoked (depth : Nat) : List (Act ω γ) → List (Nat × Listener)
  | [] => []
  | .posted .. :: as => invoked (depth + 1) as
  | .closed .. :: as => invoked (depth - 1) as
  | .entered _ _ g :: as => if depth = 0 then g :: invoked depth as else invoked depth as
  | _ :: as => invoked depth as

mutual

theorem invoked_append_of_orderly {invoke : γ → Native ω γ} {w : World ω γ} {as : List (Act ω γ)}
    (h : Orderly invoke w as) (depth : Nat) (rest : List (Act ω γ)) :
    invoked depth (as ++ rest) = invoked depth rest := by
  match h with
  | .nil _ => rfl
  | .act (a := a) ha => cases a <;> first | rfl | cases ha
  | .append ha hb =>
    rw [List.append_assoc, invoked_append_of_orderly ha, invoked_append_of_orderly hb]
  | @Orderly.post _ _ _ _ d event payload body hbody =>
    -- inside a nested post no call counts, and its end gives the depth back
    have hopen : depth + 1 ≠ 0 := Nat.succ_ne_zero depth
    have hrounds := invoked_append_of_rounds hbody (depth + 1) (.closed d event :: rest)
    rw [if_neg hopen, List.nil_append] at hrounds
    simpa [invoked] using hrounds

theorem invoked_append_of_rounds {invoke : γ → Native ω γ} {d : Nat} {event : String}
    {payload : Value} {gs : List (Nat × Listener)} {w : World ω γ} {as : List (Act ω γ)}
    (h : Rounds invoke d event payload gs w as) (depth : Nat) (rest : List (Act ω γ)) :
    invoked depth (as ++ rest) = (if depth = 0 then gs else []) ++ invoked depth rest := by
  match h with
  | .nil => simp
  | @Rounds.cons _ _ _ _ _ _ g gs _ _ ended inner later _ hinner hrest =>
    have htail := invoked_append_of_rounds hrest depth rest
    have hhead := invoked_append_of_orderly hinner depth (.left d event g ended :: (later ++ rest))
    have hround : invoked depth
        (.entered d event g :: inner ++ .left d event g ended :: later ++ rest) =
          (if depth = 0 then [g] else []) ++ invoked depth (later ++ rest) := by
      simp only [List.append_assoc, List.cons_append, invoked, hhead]
      split <;> rfl
    rw [hround, htail]
    split <;> rfl

end

/-! ## Posts -/

/-- A dispatch without an end has made the rounds of the handlers before one whose call has no
end. -/
theorem Journal.exists_of_dispatch_eq_none {invoke : γ → Native ω γ} {n d : Nat} {event : String}
    {payload : Value} {gs : List (Nat × Listener)} {w : World ω γ}
    (h : dispatch (callAt invoke n) d event payload gs w = none) :
    ∃ before g after body, gs = before ++ g :: after ∧
      Rounds invoke d event payload before w body ∧
        callAt invoke n g.2.target [payload] (replay body w) = none := by
  induction gs generalizing w with
  | nil => cases h
  | cons g gs ih =>
    cases hcall : callAt invoke n g.2.target [payload] w with
    | none => exact ⟨[], g, gs, [], rfl, .nil, hcall⟩
    | some r =>
      obtain ⟨ended, inner⟩ := r
      have hrest : dispatch (callAt invoke n) d event payload gs
          ((Act.left d event g ended).apply (replay inner w)) = none := by
        simpa [dispatch, bind, act, hcall, Act.apply] using h
      obtain ⟨before, g', after, body, hgs, hbody, hstuck⟩ := ih hrest
      refine ⟨g :: before, g', after, .entered d event g :: inner ++ .left d event g ended :: body,
        ?_, ?_, ?_⟩
      · rw [hgs, List.cons_append]
      · exact .cons hcall (isOrderly_callAt invoke n _ _ _ _ _ hcall) hbody
      · simpa [Act.apply] using hstuck

namespace Runner

/-- **What a post does.** It makes the rounds of the handlers that its event had when it began: it
calls these and no others, each once, in the order of registration, however the ones before ended
and whatever they did to the bus, and its answer is how many there were. Every post that is made
within does the same with the bus as all acts before it have left it, and so does every later one.
Only a call without an end keeps a post from its end. -/
theorem post_rounds (r : Runner ω γ) (d : Nat) (event : String) (payload : Value) (w : World ω γ)
    (reachable : (w.desk d).bus.Reachable) :
    let handlers := (w.desk d).bus.registered event
    (handlers.map Prod.fst).Pairwise (· < ·) ∧
    ((∃ body, Rounds r.invoke d event payload handlers w body ∧ invoked 0 body = handlers ∧
        Journal.post r.report d event payload w =
          some (handlers.length, .posted d event payload :: body ++ [.closed d event]) ∧
        r.post d event payload w = some (handlers.length, replay body w) ∧
        ((replay body w).desk d).bus.Reachable) ∨
      (r.post d event payload w = none ∧
        ∃ before g after body, handlers = before ++ g :: after ∧
          Rounds r.invoke d event payload before w body ∧
          r.call g.2.target [payload] (replay body w) = none)) := by
  intro handlers
  refine ⟨reachable.sound.ascending event, ?_⟩
  have hpost := r.forget_post d event payload w
  cases hjournal : Journal.post r.report d event payload w with
  | some s =>
    obtain ⟨k, as⟩ := s
    -- at depth zero the handlers that the rounds call are the ones that count
    obtain ⟨rfl, body, rfl, hbody⟩ :=
      Journal.post_eq_some (Journal.isOrderly_callAt r.invoke r.depth) hjournal
    have hcalled := invoked_append_of_rounds hbody 0 []
    simp only [List.append_nil, ↓reduceIte, invoked] at hcalled
    refine .inl ⟨body, hbody, hcalled, rfl, ?_, replay_reachable body reachable⟩
    rw [← hpost, Journal.forget, hjournal]
    simp [Act.apply, handlers]
  | none =>
    -- all a post does apart from the dispatch has an end
    have hdispatch : Journal.dispatch r.report d event payload handlers w = none := by
      cases hd : Journal.dispatch r.report d event payload handlers w with
      | none => rfl
      | some s =>
        obtain ⟨_, body⟩ := s
        simp [Journal.post, Journal.bind, Journal.ask, Journal.act, Journal.pure, Act.apply,
          handlers] at hjournal hd
        simp [hd] at hjournal
    obtain ⟨before, g, after, body, hsplit, hbody, hstuck⟩ :=
      Journal.exists_of_dispatch_eq_none hdispatch
    refine .inr ⟨?_, before, g, after, body, hsplit, hbody, ?_⟩
    · rw [← hpost, Journal.forget, hjournal]
      rfl
    · rw [← r.forget_report, Journal.forget, report, hstuck]
      rfl

def plain : Runner Unit Empty := ⟨Empty.elim, 4⟩

end Runner

/-- A world with two handlers of one event: the first one clears the bus and crashes, the second one
posts the event again. -/
def World.clearing : World Unit Empty :=
  let clears : Native Unit Empty := fun _ => .bus 0 .clear fun _ => .done (.crashed none)
  let posts : Native Unit Empty := fun _ =>
    .bus 0 (.post "tick" .unit) fun n => .done (.done (.int (Int64.ofNat n)))
  let w := (((World.fresh ()).addDesk .kept).define (.native clears)).define (.native posts)
  w.changeBus 0 fun b =>
    (b.listen "tick" (.host ⟨"clears", none, 0⟩)).listen "tick" (.host ⟨"posts", none, 1⟩)

/-- Both handlers run, although the first one removes them and crashes. -/
theorem Runner.post_rounds_clearing :
    ∃ body, Rounds plain.invoke 0 "tick" .unit ((World.clearing.desk 0).bus.registered "tick")
        World.clearing body ∧
      (invoked 0 body).map (fun g => g.2.target.name) = ["clears", "posts"] ∧
      plain.post 0 "tick" .unit World.clearing = some (2, replay body World.clearing) ∧
      ((replay body World.clearing).desk 0).bus.size = 0 := by
  have reachable : (World.clearing.desk 0).bus.Reachable :=
    .listen (.listen .empty "tick" _) "tick" _
  obtain ⟨-, ⟨body, hbody, hcalled, -, hpost, -⟩ | ⟨hnone, -⟩⟩ :=
    Runner.post_rounds plain 0 "tick" .unit World.clearing reachable
  · refine ⟨body, hbody, ?_, hpost, ?_⟩
    · rw [hcalled]
      rfl
    · have hsize : (plain.post 0 "tick" .unit World.clearing).map
          (fun s => (s.2.desk 0).bus.size) = some 0 := by decide
      rw [hpost] at hsize
      exact Option.some.inj hsize
  · have hsome : (plain.post 0 "tick" .unit World.clearing).isSome := by decide
    rw [hnone] at hsome
    cases hsome

end PackHost
