import PackHost.Proofs.Language.FailureClass
import PackHost.Proofs.Language.Fresh
import PackHost.Proofs.Language.History
import PackHost.Proofs.Script.Grammar

/-!
# Names that are kept from scripts

In a context a name that is kept from scripts stands for nothing of the namespace. A call of it does
not compile, if it is a keyword, and fails when it is made otherwise, unless the language has a
function of the name that the stub does not shadow. The main statement is `restricted_calls`.
-/

namespace PackHost.Language

variable {L : Language} {ω γ : Type}

/-! ## Stubs -/

variable (L) in
/-- The language has a function of the name that no stub shadows: one for just the types of the
arguments, or one for more arguments than stubs take. -/
def Unshadowed (name : String) (args : List L.Datum) : Prop :=
  (args ≠ [] ∧ L.builtin name args = true) ∨
    (Kit.mostArguments < args.length ∧ L.general name args.length = true)

/-- The name has a stub, and no function of the host. -/
structure Stubbed (k : Kit) (name : String) : Prop where
  unbound : k.functions.get? name = none
  stub : k.stubs.contains name = true

namespace Stubbed

variable {k : Kit} {name : String}

theorem registered?_eq (h : Stubbed k name) (count : Nat) :
    k.registered? name count = if count ≤ Kit.mostArguments then some .stub else none := by
  unfold Kit.registered?
  rw [h.unbound, h.stub]
  simp

theorem target_eq (h : Stubbed k name) (args : List L.Datum) : k.target L name args =
    if args ≠ [] ∧ L.builtin name args = true then .own
    else if args.length ≤ Kit.mostArguments then .registered .stub
    else if L.general name args.length = true then .own
    else .missing := by
  unfold Kit.target
  rw [h.registered?_eq]
  cases args with
  | nil => simp [Kit.mostArguments]
  | cons d ds =>
    by_cases hcount : (d :: ds).length ≤ Kit.mostArguments
    · rw [if_pos hcount, if_pos hcount]
      cases L.builtin name (d :: ds) <;> simp
    · rw [if_neg hcount, if_neg hcount]
      cases L.builtin name (d :: ds) <;> cases L.general name (d :: ds).length <;> simp

theorem target_cases (h : Stubbed k name) (args : List L.Datum) :
    k.target L name args = .registered .stub ∨ k.target L name args = .missing ∨
      k.target L name args = .own ∧ L.Unshadowed name args := by
  rw [h.target_eq]
  split
  · next hbuiltin => exact .inr (.inr ⟨rfl, .inl hbuiltin⟩)
  · split
    · exact .inl rfl
    · next hcount =>
      split
      · next hgeneral => exact .inr (.inr ⟨rfl, .inr ⟨Nat.lt_of_not_le hcount, hgeneral⟩⟩)
      · exact .inr (.inl rfl)

/-- A call of the name does nothing to the world. -/
theorem exists_respond (p : Port L ω γ) {b : Binder} (h : Stubbed b.kit name) (fixed : Bool)
    (args : List L.Datum) : ∃ u, p.respond b name fixed args = .done u := by
  unfold Port.respond
  rcases h.target_cases args with htarget | htarget | ⟨htarget, -⟩
  · rw [htarget]
    cases fixed with
    | true => exact ⟨.fixed, rfl⟩
    | false => exact ⟨.refused, rfl⟩
  · rw [htarget]
    exact ⟨.missing, rfl⟩
  · rw [htarget]
    exact ⟨.own, rfl⟩

/-- A call of the name fails, unless the language has a function that is not shadowed. -/
theorem fails_of_fits (h : Stubbed k name) {args : List L.Datum} {u : Upshot}
    (hu : u.Fits k name args) : (∀ f vs ended, u ≠ .returned f vs ended) ∧
      (u = .own → L.Unshadowed name args) ∧
      (u ≠ .own → Fails (u.response L name) ∧ u.isScriptLevel = true) := by
  have hcases := h.target_cases args
  cases u with
  | returned f vs ended =>
    rw [show k.target L name args = .registered (.host f) from hu] at hcases
    simp at hcases
  | own =>
    rw [show k.target L name args = .own from hu] at hcases
    refine ⟨by simp, fun _ => by simpa using hcases, fun hne => absurd rfl hne⟩
  | refused => exact ⟨by simp, by simp, fun _ => ⟨⟨_, .raised _ false none⟩, rfl⟩⟩
  | fixed => exact ⟨by simp, by simp, fun _ => ⟨⟨_, .fixed "" none⟩, rfl⟩⟩
  | missing => exact ⟨by simp, by simp, fun _ => ⟨⟨_, .missing "" none⟩, rfl⟩⟩

end Stubbed

/-! ## Contexts -/

namespace Context

/-- **A name that is kept from scripts has a stub**, unless it is one of the words without one. -/
theorem stubbed_ofSpec (L : Language) (limits : Limits) {spec : ContextSpec} {name : String}
    (hname : spec.restriction.contains name = true) (hword : name ∉ keptWords) :
    Stubbed (ofSpec L limits spec).kit name where
  unbound := get?_functions_ofSpec limits hname
  stub := by
    have hfree : Table.contains name (ofSpec L limits spec).kit.functions = false := by
      rw [Table.contains, get?_functions_ofSpec limits hname]
      rfl
    refine List.contains_iff_mem.mpr (List.mem_filter.mpr ⟨Restriction.contains_iff.mp hname, ?_⟩)
    have hkept : keptWords.contains name = false :=
      Bool.eq_false_iff.mpr fun h => hword (List.contains_iff_mem.mp h)
    rw [hkept]
    exact Bool.not_eq_true' _ |>.mpr hfree

/-- What a context is made of does not depend on what the namespace has under names that are kept
from scripts. -/
theorem ofSpec_congr (L : Language) (limits : Limits) (spec : ContextSpec) {globals : Table Global}
    (h : globals.filter (fun e => !spec.restriction.contains e.1) =
      spec.globals.filter fun e => !spec.restriction.contains e.1) :
    ofSpec L limits { spec with globals := globals } = ofSpec L limits spec := by
  simp only [ofSpec, h]

variable (p : Port L ω γ)

theorem kit_run (c : Context L) (location text : String) :
    (c.run p location text).Ends fun r => r.2.kit = c.kit := by
  unfold run
  split
  · rfl
  · refine (Program.ends_true _).bind fun slot _ => ?_
    exact (Program.ends_true _).bind fun r _ => kit_after c _ slot r

theorem fits_recorded (c : Context L) (location : String) (t : L.Tree) :
    (c.recorded p location t).Ends fun x => ∀ e ∈ x.1, e.Fits c.kit := by
  refine (Program.ends_true _).bind fun slot _ => ?_
  refine (p.fits_record _ _ fun e he => ?_).bind fun x hx => hx
  cases he

end Context

theorem Callback.fits_recorded (p : Port L ω γ) (c : L.Callback) (t : L.Tree) (args : List Value) :
    (c.recorded p t args).Ends fun x => ∀ e ∈ x.1, e.Fits c.kit := by
  refine (p.fits_record _ _ fun e he => ?_).bind fun x hx =>
    (Program.ends_true _).bind fun r _ => hx
  cases he

/-- In the course of a run no call of the name reaches a function of the host, or one of the
language that a stub shadows. Every other call of it fails, the script is to blame, and the run fails
with it where it is not caught. -/
def Shut {α : Type} (name : String) (es : List (Entry L)) (outcome : Outcome α) : Prop :=
  ∀ args u, .call name args u ∈ es →
    (∀ f vs ended, u ≠ .returned f vs ended) ∧ (u = .own → L.Unshadowed name args) ∧
      (u ≠ .own → Fails (u.response L name) ∧ u.isScriptLevel = true ∧
        (Entry.Uncaught (.call name args u) es →
          ∃ g, outcome = .failed g ∧ g.isScriptLevel = true))

theorem Stubbed.shut {k : Kit} {name : String} (h : Stubbed k name) {α β : Type}
    {es : List (Entry L)} {r : Ended L.Datum α} {outcome : Outcome β}
    (hfits : ∀ e ∈ es, e.Fits k) (hcarries : L.Carries (es.map Entry.happening) r)
    (hfailed : ∀ e, r = .failed e → outcome = .failed (L.failureOf e)) : Shut name es outcome := by
  intro args u hu
  obtain ⟨hhost, hown, hfails⟩ := h.fails_of_fits (hfits _ hu)
  refine ⟨hhost, hown, fun hne => ?_⟩
  obtain ⟨hfail, hlevel⟩ := hfails hne
  refine ⟨hfail, hlevel, fun huncaught => ?_⟩
  obtain ⟨e, he, htells⟩ := hcarries.outward _ hfail huncaught.happening
  exact ⟨_, hfailed e he, htells.isScriptLevel.trans hlevel⟩

/-- **What is kept from scripts fails when it is called, unless the language has a function of the
name that is not shadowed.** What the namespace has under such a name makes no difference to a
context, and a context stays made of what it is made of, whatever runs in it. A text that compiles
calls no keyword that is kept from scripts. A call of another such name does nothing to the world,
however it is made and with whatever arguments. In a run of a script, or of a function that one has
left behind, it never reaches a function of the host; it reaches a function of the language only
where no stub shadows that; and otherwise the run fails, and the script is to blame. Records say what
such runs do. -/
theorem restricted_calls (hp : L.Propagates) {calls : L.Tree → String → Prop}
    (hd : L.Disables Context.keptWords calls) (p : Port L ω γ) (limits : Limits)
    (spec : ContextSpec) :
    (∀ globals : Table Global,
      globals.filter (fun e => !spec.restriction.contains e.1) =
          spec.globals.filter (fun e => !spec.restriction.contains e.1) →
        Context.ofSpec L limits { spec with globals := globals } =
          Context.ofSpec L limits spec) ∧
    (∀ c : Context L, c.kit = (Context.ofSpec L limits spec).kit → ∀ location text,
      (c.run p location text).Ends fun r =>
        r.2.kit = (Context.ofSpec L limits spec).kit) ∧
    (∀ (c : Context L) location text t, L.compile c.kit.off text = .ok t →
      c.run p location text = (c.recorded p location t).bind fun x => .done x.2) ∧
    (∀ (c : L.Callback) t args, c.tree = some t → args.length ≤ Callback.mostArguments →
      c.perform p args = (c.recorded p t args).bind fun x => .done x.2) ∧
    ∀ name, spec.restriction.contains name = true →
      (name ∈ Context.keptWords → ∀ text t,
        L.compile (Context.ofSpec L limits spec).kit.off text = .ok t → ¬ calls t name) ∧
      (name ∉ Context.keptWords →
        (∀ b : Binder, b.kit = (Context.ofSpec L limits spec).kit → ∀ fixed args,
          ∃ u, p.respond b name fixed args = .done u) ∧
        (∀ c : Context L, c.kit = (Context.ofSpec L limits spec).kit →
          ∀ location t es outcome c',
            (c.recorded p location t).CanEnd (es, outcome, c') → Shut name es outcome) ∧
        ∀ c : L.Callback, c.kit = (Context.ofSpec L limits spec).kit →
          ∀ t args es outcome,
            (c.recorded p t args).CanEnd (es, outcome) → Shut name es outcome) := by
  refine ⟨fun globals hglobals => Context.ofSpec_congr L limits spec hglobals,
    fun c hc location text => hc ▸ c.kit_run p location text,
    fun _ _ _ _ => Context.run_eq_recorded p, fun _ _ _ => Callback.perform_eq_recorded p,
    fun name hname => ⟨fun hword text t hread => ?_, fun hword => ?_⟩⟩
  · exact hd _ text t name hread (Restriction.contains_iff.mp hname) hword
  have hstub := Context.stubbed_ofSpec L limits hname hword
  refine ⟨fun b hb fixed args => (hb ▸ hstub).exists_respond p fixed args,
    fun c hc location t es outcome c' hends => ?_, fun c hc t args es outcome hends => ?_⟩
  · have hfits := (c.fits_recorded p location t).of_canEnd hends
    obtain ⟨r, hcarries, houtcome⟩ := (c.carries_recorded hp location t).of_canEnd hends
    refine (hc ▸ hstub).shut hfits hcarries fun e he => ?_
    dsimp only at houtcome
    rw [houtcome, he]
    rfl
  · have hfits := (c.fits_recorded p t args).of_canEnd hends
    obtain ⟨r, hcarries, hfailed⟩ := (c.carries_recorded hp t args).of_canEnd hends
    exact (hc ▸ hstub).shut hfits hcarries hfailed

namespace Sample

open Script (language)

/-- A context whose namespace has a function of the host under a name that is kept from scripts. -/
def shut : Context language :=
  .ofSpec language .default ⟨"pack", [("quit", ⟨.function ⟨"quit", none, 0⟩, true⟩)], .standard⟩

def lastRefused? : List (Entry language) → Option String
  | .call name _ .refused :: _ => some name
  | _ => none

theorem exists_quitting : ∃ t x w, Script.compile shut.kit.off "quit(1)" = .ok t ∧
    Script.bareRunner.run (shut.recorded Script.barePort "a.rhai" t) (.fresh .empty) = some (x, w) ∧
    ∃ args, Entry.Uncaught (.call "quit" args .refused) x.1 := by
  have hrun : ((Script.compile shut.kit.off "quit(1)").toOption.bind fun t =>
      (Script.bareRunner.run (shut.recorded Script.barePort "a.rhai" t) (.fresh .empty)).map fun s =>
        lastRefused? s.1.1) = some (some "quit") := by decide +kernel
  obtain ⟨t, ht, hrun⟩ := Option.bind_eq_some_iff.mp hrun
  obtain ⟨⟨x, w⟩, hx, hends⟩ := Option.map_eq_some_iff.mp hrun
  refine ⟨t, x, w, Script.compile_eq_ok ht, hx, ?_⟩
  unfold lastRefused? at hends
  split at hends
  · next name args rest hes =>
    cases hends
    exact ⟨args, [], rest, hes, List.not_mem_nil⟩
  · cases hends

end Sample

/-- A function of the host under the name `quit` is not there for scripts, and a script that calls
the name fails. -/
theorem restricted_calls_sample :
    Sample.shut = .ofSpec Script.language .default ⟨"pack", [], .standard⟩ ∧
    (Sample.shut.run Script.barePort "a.rhai" "let n = 1;").Ends (fun r => r.2.kit = Sample.shut.kit) ∧
    (∀ t, Script.compile Sample.shut.kit.off "let n = 1;" = .ok t → ¬ t.Calls "print") ∧
    (∃ u, Script.barePort.respond ⟨Sample.shut.kit, none⟩ "quit" true [.int 1, .unit] = .done u) ∧
    ∃ t es outcome c g, Script.compile Sample.shut.kit.off "quit(1)" = .ok t ∧
      (Sample.shut.recorded Script.barePort "a.rhai" t).CanEnd (es, outcome, c) ∧
      outcome = .failed g ∧ g.isScriptLevel = true := by
  obtain ⟨hglobals, hkit, -, -, hnames⟩ := restricted_calls Script.language_propagates
    Script.language_disables Script.barePort .default ⟨"pack", [], .standard⟩
  have hsame : Sample.shut = .ofSpec Script.language .default ⟨"pack", [], .standard⟩ :=
    hglobals _ (by simp [show Restriction.standard.contains "quit" = true from rfl])
  obtain ⟨-, hcalls⟩ := hnames "quit" rfl
  obtain ⟨hresponds, hruns, -⟩ := hcalls (by decide)
  obtain ⟨t, ⟨es, outcome, c⟩, w, hread, hx, args, huncaught⟩ := Sample.exists_quitting
  have hcan := Program.canEnd_of_run hx
  obtain ⟨later, earlier, hes, hlater⟩ := huncaught
  obtain ⟨-, -, hfails⟩ := hruns Sample.shut (congrArg Context.kit hsame) _ _ _ _ _ hcan args
    .refused (by rw [show es = _ from hes]; simp)
  obtain ⟨-, -, hends⟩ := hfails (by simp)
  obtain ⟨g, hg, hlevel⟩ := hends ⟨later, earlier, hes, hlater⟩
  refine ⟨hsame, ?_, ?_, hresponds ⟨Sample.shut.kit, none⟩ (congrArg Context.kit hsame) _ _,
    t, es, outcome, c, g, hread, hcan, hg, hlevel⟩
  · rw [hsame]
    exact hkit _ rfl _ _
  · rw [hsame]
    exact fun t => (hnames "print" rfl).1 (by decide) "let n = 1;" t

def Sample.intOf (c : Context Script.language) (name : String) : Option Int64 :=
  match Script.language.find? c.scope name with
  | some (.own (.int n)) => some n
  | _ => none

/-- The language has a function for the length of a list, so with the name `len` kept from scripts
the text still runs to its end, and the variable has the length. -/
theorem restricted_length_answered :
    (Restriction.ofList ["len"]).contains "len" = true ∧
    (Script.bareRunner.run ((Context.ofSpec Script.language .default ⟨"test", [], .ofList ["len"]⟩).run
      Script.barePort "a.rhai" "let l = [1, 2].len();") (World.fresh Script.Heap.empty)).map
        (fun r => (r.1.1, Sample.intOf r.1.2 "l")) = some (.done (), some 2) := by
  decide +kernel

end PackHost.Language
