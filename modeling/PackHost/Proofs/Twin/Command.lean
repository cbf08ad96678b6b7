import PackHost.Proofs.Twin.Host
import PackHost.Workbench

/-!
# Contexts of commands side by side

The command engine keeps all that it has in its contexts, and these are namespaces. So it is uniform
(`Command.uniform`), in particular that of the host that offers everything
(`Workbench.uniform_commandEngine`). A small host with this engine has a function that answers alike
whatever happened before (`Bench.Sample.hosted`).
-/

namespace PackHost

namespace Command

open Scene

variable {ω γ : Type} {wrap : Made → γ} {d : Nat} {strict tame : Prop} {ρ : Link} {s s' : ω}

theorem matches_mono {ρ' : Link} {c c' : Context} (h : ρ ≤ ρ')
    (hc : Table.Matches (Global.Matches (Function.Linked ρ)) c c') :
    Table.Matches (Global.Matches (Function.Linked ρ')) c c' :=
  hc.imp fun _ _ => .mono h

/-- Contexts are namespaces that match, and functions of the engine are the same. -/
def likeness (wrap : Made → γ) : Likeness ω γ Context where
  Memory := Empty
  part _ _ := none
  recalls _ := Eq
  code _ c c' := ∃ m, c = wrap m ∧ c' = wrap m
  context ρ := Table.Matches (Global.Matches (Function.Linked ρ))
  recalls_mono _ hm := hm
  code_mono _ hc := hc
  context_mono := matches_mono

abbrev scene (ω : Type) (wrap : Made → γ) (d : Nat) (strict tame : Prop) : Scene ω γ Context :=
  ⟨likeness wrap, d, strict, tame⟩

/-! ## Functions of the engine -/

/-- No part of the state is compared, so any state may be put. -/
theorem spares (linked : Nat → Prop) (t t' : ω) :
    (scene ω wrap d strict tame).Spares linked t t' :=
  ⟨fun _ h => absurd rfl h, fun _ h => absurd rfl h⟩

theorem alike_perform (ledger : Part ω Ledger) (m : Made) (args args' : List Value)
    (hagree : (scene ω wrap d strict tame).Agree ρ s s') :
    (scene ω wrap d strict tame).Alike Outcome.Linked ρ s s' (m.perform ledger args)
      (m.perform ledger args') := by
  cases m with
  | tag name =>
    refine .getLeft (.getRight (.setLeft (spares _ _ _) (.setRight (spares _ _ _) ?_)))
    exact .done (fun k k' hk => (hagree k k' hk).elim fun m _ => m.elim) trivial
  | fails message => exact .done hagree rfl

/-! ## Commands -/

section

variable {c c' : Context} (hc : Table.Matches (Global.Matches (Function.Linked ρ)) c c')
include hc

theorem rel_value (name : String) : Option.Rel (Value.Linked ρ) ((c.get? name).map Global.value)
    ((c'.get? name).map Global.value) :=
  rel_map (fun _ _ hg => hg.2) (hc.get? name)

theorem isConstant_eq (name : String) : isConstant c name = isConstant c' name := by
  unfold isConstant
  obtain ⟨g, g', hleft, hright, hg⟩ | ⟨hleft, hright⟩ := rel_cases (hc.get? name)
  · rw [hleft, hright]
    exact hg.1
  · rw [hleft, hright]

variable (hagree : (scene ω wrap d strict tame).Agree ρ s s')
include hagree

theorem alike_value (word : String) :
    (scene ω wrap d strict tame).Alike Value.Linked ρ s s' (value wrap c word) (value wrap c' word) := by
  unfold value
  split
  · next name _ =>
    refine .done hagree ?_
    obtain ⟨v, v', hleft, hright, hv⟩ | ⟨hleft, hright⟩ :=
      rel_cases (rel_value hc (String.ofList name))
    · rw [hleft, hright]
      exact hv
    · rw [hleft, hright]
      exact trivial
  · exact .create hagree ⟨_, rfl, rfl⟩ fun _ _ _ _ _ _ hagree₁ hf => .done hagree₁ hf
  · exact .create hagree ⟨_, rfl, rfl⟩ fun _ _ _ _ _ _ hagree₁ hf => .done hagree₁ hf
  · -- what the word says is the same on both sides, whatever it is
    repeat' split
    all_goals exact .done hagree (by first | exact trivial | exact rfl)

theorem alike_values (words : List String) :
    (scene ω wrap d strict tame).Alike (fun ρ => List.Forall₂ (Value.Linked ρ)) ρ s s'
      (values wrap c words) (values wrap c' words) := by
  induction words generalizing ρ s s' with
  | nil => exact .done hagree .nil
  | cons w ws ih =>
    refine (alike_value hc hagree w).bind fun ρ₁ t t' v v' hle hagree₁ hv => ?_
    refine (ih (matches_mono hle hc) hagree₁).bind fun ρ₂ _ _ vs vs' hle₂ hagree₂ hvs => ?_
    exact .done hagree₂ (.cons (hv.mono hle₂) hvs)

/-- **A statement does alike**, and leaves namespaces that match behind. -/
theorem alike_step (x : Statement) :
    (scene ω wrap d strict tame).Alike (scene ω wrap d strict tame).Ended ρ s s'
      (step wrap c x) (step wrap c' x) := by
  have hstop : ∀ o : Outcome Unit, (scene ω wrap d strict tame).Alike
      (scene ω wrap d strict tame).Ended ρ s s' (.done (o, c)) (.done (o, c')) :=
    fun o => .done hagree ⟨rfl, hc⟩
  have hbound : ∀ (name : String) ρ₁ t t' (v v' : Value), ρ ≤ ρ₁ →
      (scene ω wrap d strict tame).Agree ρ₁ t t' → v.Linked ρ₁ v' →
      (scene ω wrap d strict tame).Alike (scene ω wrap d strict tame).Ended ρ₁ t t'
        (.done (Outcome.done (), c.insert name ⟨v, false⟩))
        (.done (Outcome.done (), c'.insert name ⟨v', false⟩)) :=
    fun name _ _ _ _ _ hle hagree₁ hv =>
      .done hagree₁ ⟨rfl, (matches_mono hle hc).insert name ⟨rfl, hv⟩⟩
  unfold step
  dsimp only
  split
  · rw [isConstant_eq hc]
    split
    · exact hstop _
    · split
      · exact (alike_value hc hagree _).bind fun ρ₁ t t' v v' hle => hbound _ ρ₁ t t' v v' hle
      · exact hbound _ ρ s s' .unit .unit (Link.le_refl ρ) hagree trivial
  · split
    · have hfound : Option.Rel (Function.Linked ρ)
          (((c.get? (x.rest.headD "")).map Global.value).bind Value.function?)
          (((c'.get? (x.rest.headD "")).map Global.value).bind Value.function?) :=
        rel_bind (fun _ _ hv => hv.rel_function) (rel_value hc _)
      obtain ⟨f, g, hleft, hright, hf⟩ | ⟨hleft, hright⟩ := rel_cases hfound
      · rw [hleft, hright]
        refine (alike_values hc hagree _).bind fun ρ₁ t t' vs vs' hle hagree₁ hvs => ?_
        refine .call hagree₁ (hf.mono hle) hvs fun ρ₂ u u' o o' hle₂ hagree₂ ho => ?_
        have hle := Link.le_trans hle hle₂
        match o, o', ho with
        | .done v, .done v', hv => exact hbound "_" ρ₂ u u' v v' hle hagree₂ hv
        | .failed e, .failed _, rfl => exact .done hagree₂ ⟨rfl, matches_mono hle hc⟩
        | .crashed m, .crashed _, rfl => exact .done hagree₂ ⟨rfl, matches_mono hle hc⟩
      · rw [hleft, hright]
        exact hstop _
    · repeat' split
      all_goals exact hstop _

theorem alike_steps (xs : List Statement) :
    (scene ω wrap d strict tame).Alike (scene ω wrap d strict tame).Ended ρ s s'
      (steps wrap xs c) (steps wrap xs c') := by
  induction xs generalizing ρ s s' c c' with
  | nil => exact .done hagree ⟨rfl, hc⟩
  | cons x xs ih =>
    refine (alike_step hc hagree x).bind ?_
    rintro ρ₁ t t' ⟨o, c₁⟩ ⟨_, c₁'⟩ - hagree₁ ⟨rfl, hc₁⟩
    cases o with
    | done _ => exact ih hc₁ hagree₁
    | failed e => exact .done hagree₁ ⟨rfl, hc₁⟩
    | crashed m => exact .done hagree₁ ⟨rfl, hc₁⟩

/-- **Commands do alike** in namespaces that match. -/
theorem alike_run (location text : String) :
    (scene ω wrap d strict tame).Alike (scene ω wrap d strict tame).Ended ρ s s'
      (run wrap c location text) (run wrap c' location text) := by
  unfold run
  dsimp only
  split
  · exact .done hagree ⟨rfl, hc⟩
  · exact alike_steps hc hagree _

end

/-! ## Engines -/

/-- **The command engine is uniform**: what happens in a context depends on the context only. -/
theorem uniform (ledger : Part ω Ledger) {r : Runner ω γ}
    (hinvoke : ∀ m : Made, r.invoke (wrap m) = m.perform ledger) (d : Nat) (strict tame : Prop) :
    (scene ω wrap d strict tame).Uniform r (engine wrap) where
  invoke ρ k k' s s' args args' hcode hagree _ := by
    obtain ⟨m, rfl, rfl⟩ := hcode
    rw [hinvoke]
    exact alike_perform ledger m args args' hagree
  create ρ pack restriction globals globals' h := by
    by_cases hbroken : "broken".toList.isPrefixOf pack.toList
    · exact .inl ⟨.context ("no engine available for " ++ pack), if_pos hbroken, if_pos hbroken⟩
    · exact .inr ⟨_, _, if_neg hbroken, if_neg hbroken,
        h.filter_names fun name => !restriction.contains name⟩
  run ρ c c' s s' location text hc hagree := alike_run hc hagree location text
  has ρ c c' hc := by
    funext name
    exact rel_isSome (hc.get? name)
  names ρ c c' hc := hc.names_eq
  global ρ c c' s s' name hc hagree := .done hagree (rel_value hc name)
  reads c name := .done _

end Command

/-- The command engine of the host that offers everything is uniform. -/
theorem Workbench.uniform_commandEngine (d : Nat) (strict tame : Prop) :
    Scene.Uniform ⟨Command.likeness Made.command, d, strict, tame⟩ runner commandEngine :=
  Command.uniform ledgerPart (fun _ => rfl) d strict tame

/-! ## A small host with a function -/

namespace Bench.Sample

open Workbench Pack

def plan : Plan Workbench Made Command.Context where
  kind := .server
  directory := ⟨"scripts"⟩
  engine := commandEngine
  preprocessor source := some (.ok source)
  restriction := .none
  settings := []
  extra := []

def unit (location text : String) : ScriptUnit := .ofFile ⟨location, ⟨location⟩, 0, text⟩

def words : ScriptPack Command.Context :=
  ((ScriptPack.empty "words" "" ⟨"words"⟩).push (unit "a" "call seen 5\ncall onEvent tick @heard")).push
    (unit "b" "set n 5\npanic")

def posts : ScriptPack Command.Context :=
  (ScriptPack.empty "posts" "" ⟨"posts"⟩).push (unit "c" "call postEvent tick 5\nset n $_")

def manager (packs : List (ScriptPack Command.Context)) : Manager Workbench Made Command.Context :=
  { Manager.create plan 0 with packs := packs }

def binder : Registrar := .ofSteps none [.write (.function ⟨"seen", none, 0⟩)]

/-- A desk, and a function of the host that notes down what it is given, for all scripts. -/
def empty : Bench :=
  { (Bench.fresh.addDesk .kept).define (.native (recording "seen")) with registrars := [binder] }

def world : Bench := empty.changeBus 0 fun b => b.listen "tick" (.host ⟨"tick", none, 0⟩)

theorem tended : world.Tended 0 :=
  let heard : Program Workbench Made Unit :=
    .bus 0 (.listen "tick" ⟨"tick", none, 0⟩) fun _ => .done ()
  have fresh : empty.desks[0]? = some (.fresh .kept) := rfl
  have created : HostCall.performAll runner [.run heard] (Manager.create plan 0) empty =
      some (Manager.create plan 0, world) := rfl
  tended_of_calls fresh created

theorem handlers (event : String) : ∀ g ∈ (world.desk 0).bus.registered event,
    g.2.isScript = false → g.2.target.id = 0 := by
  intro g hg _
  have hbus : (world.desk 0).bus.table = [("tick", [(0, .host ⟨"tick", none, 0⟩)])] := rfl
  rw [Event.Bus.registered, hbus, Table.get?] at hg
  split at hg
  · obtain rfl := List.mem_singleton.mp hg
    rfl
  · cases hg

theorem codeLinked (ρ : Link) (d : Nat) (strict tame : Prop) :
    Scene.CodeLinked ⟨Command.likeness Made.command, d, strict, tame⟩ ρ
      (.native (recording "seen")) (.native (recording "seen")) := by
  refine .native fun ρ₁ s s' args args' _ hagree _ => ?_
  refine .getLeft (.getRight (.setLeft (Command.spares _ _ _) (.setRight (Command.spares _ _ _) ?_)))
  exact .done (fun k k' hk => (hagree k k' hk).elim fun m _ => m.elim) trivial

theorem hosted (d : Nat) (strict tame : Prop) :
    Scene.Hosted ⟨Command.likeness Made.command, d, strict, tame⟩ (· = 0) world where
  codes i hi := by
    subst hi
    exact ⟨_, rfl, codeLinked _ d strict tame⟩
  listeners f hf := by cases hf

theorem steady (kind : ScriptKind) : Registrar.Steady (· = 0) kind [binder] := by
  intro g hg n n' x hx
  obtain rfl := List.mem_singleton.mp hg
  exact ⟨rfl, Registry.Matches.writeFunction hx rfl ⟨⟨rfl, rfl⟩, rfl, rfl⟩⟩

end Bench.Sample

end PackHost
