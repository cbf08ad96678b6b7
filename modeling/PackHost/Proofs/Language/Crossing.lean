import PackHost.Proofs.Language.Fresh
import PackHost.Proofs.Script.Laws
import PackHost.Proofs.World.Offer

/-!
# Values on their way through scripts

A value of the host comes back from a script as it was. `Session.Asks` says that an evaluation makes
one call, and what it makes of its answer; where the call is one of a function of the host, the
function gets the values themselves (`Port.run_play`). From this follow a script that keeps an
answer (`Context.KeepsAnswer.run`) and a function of a script that the host calls
(`Callback.HandsOn.run`). All of it is together in `values_cross`.
-/

namespace PackHost

/-- The evaluation makes one call, before which it may look at the memory, and makes its result of
the answer. -/
inductive Session.Asks {μ δ α : Type} (name : String) (args : List δ) (made : δ → α) :
    Session μ δ α → Prop
  | call {next : Response δ → Session μ δ α} :
      (∀ d, next (.answered (.value d) true) = .done (made d)) →
      Asks name args made (.call name false args next)
  | look {next : μ → Session μ δ α} : (∀ m, Asks name args made (next m)) →
      Asks name args made (.look next)

theorem Runner.run_call {ω γ α : Type} (r : Runner ω γ) {f : Function} {vs : List Value}
    {next : Outcome Value → Program ω γ α} {w w' : World ω γ} {ended : Outcome Value}
    (h : r.call f vs w = some (ended, w')) : r.run (.call f vs next) w = r.run (next ended) w' := by
  rw [Runner.run, runWith, h]
  rfl

namespace Language

variable {L : Language} {ω γ : Type}

namespace Port

variable (p : Port L ω γ) (b : Binder)

/-- **A function of the host gets the values themselves.** -/
theorem respond_encodeAll (hl : L.Lossless) {name : String} {f : Function} {vs : List Value}
    (h : b.kit.target L name (L.encodeAll vs) = .registered (.host f)) :
    p.respond b name false (L.encodeAll vs) =
      .call f vs fun ended => .done (.returned f vs ended) := by
  rw [respond, h]
  dsimp only
  rw [if_neg Bool.false_ne_true, each_decode_encodeAll p b hl]
  rfl

theorem run_play (hl : L.Lossless) {r : Runner ω γ} {name : String} {f : Function}
    {vs : List Value} {v : Value} {α : Type} {made : L.Datum → α}
    {s : Session L.Memory L.Datum α} {w w' : World ω γ}
    (h : s.Asks name (L.encodeAll vs) made)
    (htarget : b.kit.target L name (L.encodeAll vs) = .registered (.host f))
    (hcall : r.call f vs w = some (.done v, w')) :
    r.run (p.play b s) w = some (made (L.encode v), w') := by
  induction h with
  | @call next hnext =>
    rw [play, p.respond_encodeAll b hl htarget]
    refine (r.run_call hcall).trans ?_
    change r.run (p.play b (next (.answered (.value (L.encode v)) true))) w' = _
    rw [hnext]
    rfl
  | @look next _ ih => exact ih _

end Port

/-! ## Contexts and functions of scripts -/

variable {p : Port L ω γ} {r : Runner ω γ}

namespace Context

/-- The script makes one call, with values of the host, and keeps what it answers. -/
def KeepsAnswer (c : Context L) (location : String) (t : L.Tree) (kept name : String)
    (vs : List Value) : Prop :=
  ∃ constant scope, (L.run c.kit.toRules location (L.merge c.shared t) c.scope).Asks name
    (L.encodeAll vs) fun d => (.value (), L.push kept constant d scope)

theorem global_of_own (hl : L.Lossless) {c : Context L} {name : String} {v : Value}
    (h : L.find? c.scope name = some (.own (L.encode v))) :
    c.global p name = .done (some v) := by
  rw [global, h]
  dsimp only
  rw [p.decode_encode _ hl]
  rfl

/-- **Such a script** gives a function of the host the values themselves, and what it answers is
what the host reads back. -/
theorem KeepsAnswer.run (hl : L.Lossless) (hs : L.Scoped) {c : Context L} {location : String}
    {t : L.Tree} {kept name : String} {f : Function} {vs : List Value} {v : Value}
    {w w' : World ω γ} (h : c.KeepsAnswer location t kept name vs)
    (htarget : c.kit.target L name (L.encodeAll vs) = .registered (.host f)) (slot : Nat)
    (hcall : r.call f vs w = some (.done v, w')) :
    ∃ c', r.run ((p.play ⟨c.kit, some slot⟩
        (L.run c.kit.toRules location (L.merge c.shared t) c.scope)).bind
          fun x => .done (L.outcomeOf x.1, c.after t slot x)) w = some ((.done (), c'), w') ∧
      c'.global p kept = .done (some v) := by
  obtain ⟨constant, scope, hasks⟩ := h
  refine ⟨c.after t slot (.value (), L.push kept constant (L.encode v) scope), ?_, ?_⟩
  · have hplay := p.run_play ⟨c.kit, some slot⟩ hl hasks htarget hcall
    rw [Runner.run] at hplay ⊢
    rw [Program.runWith_bind, hplay]
    rfl
  · refine global_of_own hl ?_
    change L.find? (L.push kept constant (L.encode v) scope) kept = _
    rw [hs.find?_push, if_pos rfl]

end Context

namespace Callback

/-- The function of the script makes one call, with values of the host, and returns what it
answers. -/
def HandsOn (c : L.Callback) (vs : List Value) (name : String) (us : List Value) : Prop :=
  vs.length ≤ mostArguments ∧ ∃ t, c.tree = some t ∧
    (L.call c.kit.toRules t c.pointer (L.encodeAll vs)).Asks name (L.encodeAll us) .value

/-- **Such a function** gives a function of the host the values themselves, and what it answers goes
back to the host. -/
theorem HandsOn.run (hl : L.Lossless) {c : L.Callback} {vs us : List Value} {name : String}
    {f : Function} {u : Value} {w w' : World ω γ} (h : c.HandsOn vs name us)
    (htarget : c.kit.target L name (L.encodeAll us) = .registered (.host f))
    (hcall : r.call f us w = some (.done u, w')) :
    r.run (c.perform p vs) w = some (.done u, w') := by
  obtain ⟨hcount, t, htree, hasks⟩ := h
  have hplay := p.run_play ⟨c.kit, c.slot⟩ hl hasks htarget hcall
  rw [perform, htree]
  dsimp only
  rw [if_neg (Nat.not_lt.mpr hcount)]
  rw [Runner.run] at hplay ⊢
  rw [Program.runWith_bind, hplay]
  change runWith r.call (p.outcome _ (.value (L.encode u))) w' = _
  rw [Port.outcome, p.decode_encode _ hl]
  rfl

end Callback

/-- **Values cross as they are.** What a value of the host is for scripts passes one test on its
type and no other, and comes back as the value, with everything in it. So what the namespace has
under a name is read back from a fresh context. A call of a function of the host, wherever it is
made, gives it the values themselves, and what it answers comes back as that. A script that keeps
what a function of the host answers gives it the values themselves and keeps the answer itself. A
function of a script that the host calls hands on what it gets and hands back what comes of it. And
a post calls every handler of its event with the payload itself. -/
theorem values_cross (hl : L.Lossless) (hs : L.Scoped) (p : Port L ω γ) :
    (∀ v, (∀ b : Binder, p.decode b (L.encode v) = .done v) ∧
      ∃ t, ∀ t', (L.test t' (L.encode v)).isSome = true ↔ t' = t) ∧
    (∀ limits (spec : ContextSpec), spec.globals.Sorted → ∀ name g,
      spec.globals.get? name = some g → spec.restriction.contains name = false →
        (Context.ofSpec L limits spec).global p name = .done (some g.value)) ∧
    (∀ (b : Binder) name f vs,
      b.kit.target L name (L.encodeAll vs) = .registered (.host f) →
      p.respond b name false (L.encodeAll vs) =
          .call f vs (fun ended => .done (.returned f vs ended)) ∧
        ∀ v, (Upshot.returned f vs (.done v)).response L name =
          .answered (.value (L.encode v)) true) ∧
    ∀ r : Runner ω γ,
      (∀ (c : Context L) location text t kept name f vs,
        L.compile c.kit.off text = .ok t → c.KeepsAnswer location t kept name vs →
        c.kit.target L name (L.encodeAll vs) = .registered (.host f) →
        ∃ next, c.run p location text = (c.announce p (L.merge c.shared t)).bind next ∧
          ∀ slot v w w', r.call f vs w = some (.done v, w') →
            ∃ c', r.run (next slot) w = some ((.done (), c'), w') ∧
              c'.global p kept = .done (some v)) ∧
      ∀ w : World ω γ, 0 < r.depth →
        (∀ (g : Function) (code : γ) (c : L.Callback),
          w.functions[g.id]? = some (.closure code) → g.arity = none →
          r.invoke code = c.perform p →
          ∀ vs name f us u w', c.HandsOn vs name us →
            c.kit.target L name (L.encodeAll us) = .registered (.host f) →
            r.inner.call f us w = some (.done u, w') → r.call g vs w = some (.done u, w')) ∧
        ∀ d handle, w.Offers d handle → ∀ event payload,
          let handlers := (w.desk d).bus.registered event
          (∃ calls w', r.call (handle .postEvent) [.text event, payload] w =
              some (.done (.int (Int64.ofNat handlers.length)), w') ∧
            r.inner.Serves d event payload handlers w calls w') ∨
          (r.call (handle .postEvent) [.text event, payload] w = none ∧
            ∃ before g after calls w', handlers = before ++ g :: after ∧
              r.inner.Serves d event payload before w calls w' ∧
              r.inner.call g.2.target [payload] w' = none) := by
  refine ⟨fun v => ⟨fun b => p.decode_encode b hl v, hl.exists_test v⟩,
    fun limits spec sorted name g hg hfree => ?_,
    fun b name f vs htarget => ⟨p.respond_encodeAll b hl htarget, fun v => rfl⟩,
    fun r => ⟨fun c location text t kept name f vs hread h htarget => ?_,
      fun w deep => ⟨fun g code c hcode harity hinvoke vs name f us u w' h htarget hcall => ?_,
        fun d handle offers event payload => r.call_postEvent deep offers event payload⟩⟩⟩
  · rw [(Context.shows_ofSpec limits hl hs p sorted).global, hfree, hg]
    rfl
  · refine ⟨_, ?_, fun slot v w w' hcall => h.run hl hs htarget slot hcall⟩
    rw [Context.run, hread]
  · rw [r.call_closure deep hcode harity, hinvoke]
    exact h.run hl htarget hcall

namespace Crossing

open Script (language)

/-- The handle of a function of the host that answers its argument. -/
def echo : Function := ⟨"echo", some 1, 0⟩

def nested : Value :=
  .map [("f", .function echo), ("l", .array [.int 1, .float 2.5, .map [("u", .unit)]])]

def echoing : ContextSpec :=
  ⟨"pack", [("echo", ⟨.function echo, true⟩), ("x", ⟨nested, false⟩)], .standard⟩

def context : Context language := .ofSpec language .default echoing

/-- A handler of a script, which gives its argument to the function. -/
def handler : Script.Callback :=
  ⟨context.kit, some .empty, none, ⟨"handler",
    some (.mk "handler" ["p"] [.expr (.call "echo" [.variable_ "p" true .start] .start)]), []⟩⟩

def quiet : World Script.Heap Script.Callback :=
  ((World.fresh Script.Heap.empty).define
    (.native fun args => .done (.done (args.headD .unit)))).addDesk .kept

def heard : Function := ⟨"handler", none, 5⟩

/-- The world with the functions of the desk and with the handler. -/
def hearing : World Script.Heap Script.Callback :=
  replay [.made handler, .listened 0 "tick" (.script heard)] (quiet.collect 0 .server).2

def keeping : String := "let y = echo(x);"

/-- The places in such a script, and whether it knows the variable. -/
def keptPlaces? : Except TextFault Script.Tree → Option (Bool × Source.Position × Source.Position)
  | .ok ⟨[], [.define "y" false (.call "echo" [.variable_ "x" known p] q)]⟩ => some (known, p, q)
  | _ => none

theorem target_echo : context.kit.target language "echo" (language.encodeAll [nested]) =
    .registered (.host echo) := by
  decide +kernel

theorem keepsAnswer (known : Bool) (p q : Source.Position) :
    context.KeepsAnswer "a.rhai" ⟨[], [.define "y" false (.call "echo" [.variable_ "x" known p] q)]⟩
      "y" "echo" [nested] :=
  ⟨false, [⟨"x", false, .own .unit⟩], .call fun _ => rfl⟩

theorem handsOn : handler.HandsOn [nested] "echo" [nested] :=
  ⟨by decide, _, rfl, .call fun _ => rfl⟩

theorem exists_keeping : ∃ t known p q, Script.compile context.kit.off keeping = .ok t ∧
    t = ⟨[], [.define "y" false (.call "echo" [.variable_ "x" known p] q)]⟩ := by
  have hread : (keptPlaces? (Script.compile context.kit.off keeping)).isSome = true := by
    decide +kernel
  obtain ⟨places, hplaces⟩ := Option.isSome_iff_exists.mp hread
  unfold keptPlaces? at hplaces
  split at hplaces
  · next known p q ht => exact ⟨_, known, p, q, ht, rfl⟩
  · cases hplaces

end Crossing

/-- A nested value with a function inside is read back from a fresh context, is echoed through a
script, and comes through a post to a handler that echoes it. -/
theorem values_cross_sample :
    Script.barePort.decode ⟨Crossing.context.kit, none⟩ (Script.language.encode Crossing.nested) =
      .done Crossing.nested ∧
    Crossing.context.global Script.barePort "x" = .done (some Crossing.nested) ∧
    Script.barePort.respond ⟨Crossing.context.kit, none⟩ "echo" false
      (Script.language.encodeAll [Crossing.nested]) =
        .call Crossing.echo [Crossing.nested] (fun ended =>
          .done (.returned Crossing.echo [Crossing.nested] ended)) ∧
    (∃ c w, Script.bareRunner.run (Crossing.context.run Script.barePort "a.rhai" Crossing.keeping)
        Crossing.hearing = some ((.done (), c), w) ∧
      c.global Script.barePort "y" = .done (some Crossing.nested)) ∧
    Script.bareRunner.call Crossing.heard [Crossing.nested] Crossing.hearing =
      some (.done Crossing.nested, Crossing.hearing) ∧
    ∃ calls w, Script.bareRunner.call (Crossing.quiet.roleHandle .postEvent)
        [.text "tick", Crossing.nested] Crossing.hearing = some (.done (.int 1), w) ∧
      Script.bareRunner.inner.Serves 0 "tick" Crossing.nested [(0, .script Crossing.heard)]
        Crossing.hearing calls w := by
  obtain ⟨hvalues, hcontexts, hresponds, hworlds⟩ := values_cross Script.language_lossless
    Script.language_scoped Script.barePort
  have sorted : Crossing.echoing.globals.Sorted := by
    unfold Table.Sorted
    decide
  have hecho : ∀ state, Script.bareRunner.call Crossing.echo [Crossing.nested]
      { Crossing.hearing with state := state } =
        some (.done Crossing.nested, { Crossing.hearing with state := state }) := fun _ => rfl
  obtain ⟨hkeeps, hcalls⟩ := hworlds Script.bareRunner
  obtain ⟨hhandler, hpost⟩ := hcalls Crossing.hearing (by decide)
  refine ⟨(hvalues Crossing.nested).1 _, hcontexts .default _ sorted "x" _ rfl rfl,
    (hresponds ⟨Crossing.context.kit, none⟩ _ _ _ Crossing.target_echo).1, ?_, ?_, ?_⟩
  · obtain ⟨t, known, p, q, hread, ht⟩ := Crossing.exists_keeping
    obtain ⟨next, heq, hnext⟩ := hkeeps Crossing.context "a.rhai" Crossing.keeping t "y" "echo" _ _
      hread (ht ▸ Crossing.keepsAnswer known p q) Crossing.target_echo
    let heap : Script.Heap := ⟨#[], #[Script.language.merge Crossing.context.shared t]⟩
    obtain ⟨c, hrun, hy⟩ := hnext 0 Crossing.nested _ _ (hecho heap)
    refine ⟨c, { Crossing.hearing with state := heap }, ?_, hy⟩
    rw [heq]
    exact hrun
  · exact hhandler Crossing.heard Crossing.handler Crossing.handler rfl rfl rfl _ _ _ _ _ _
      Crossing.handsOn Crossing.target_echo rfl
  · have offers : Crossing.hearing.Offers 0 Crossing.quiet.roleHandle :=
      (Crossing.quiet.offers_collect 0 .server).replay _
    have hends : (Script.bareRunner.call (Crossing.quiet.roleHandle .postEvent)
        [.text "tick", Crossing.nested] Crossing.hearing).isSome = true := by
      decide +kernel
    rcases hpost 0 _ offers "tick" Crossing.nested with ⟨calls, w, hdone, hserves⟩ | ⟨hnone, -⟩
    · exact ⟨calls, w, hdone, hserves⟩
    · rw [hnone] at hends
      cases hends

end Language

end PackHost
