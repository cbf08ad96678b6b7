import PackHost.Proofs.Language.Fresh
import PackHost.Proofs.Script.Laws

/-!
# Contexts in which scripts have run

A context keeps what scripts that ran to their end have defined, and nothing of the others
(`library_of_history`). The statements of a script are never kept, so a later script runs its own
statements only.
-/

namespace PackHost.Language

variable {L : Language} {ω γ : Type}

/-! ## Histories -/

structure Turn where
  location : String
  text : String
  outcome : Outcome Unit
deriving DecidableEq

namespace Turn

variable (L) (off : List String)

def completed? (t : Turn) : Option L.Tree :=
  match t.outcome with
  | .done _ => (L.compile off t.text).toOption
  | _ => none

/-- What the script has under the name for that many arguments, if it ran to its end. -/
def defined? (name : String) (count : Nat) (t : Turn) : Option L.Routine :=
  (t.completed? L off).bind fun tree => L.routine? tree name count

/-- What the last script has under the name that ran to its end and has anything there. -/
def latest? (name : String) (count : Nat) (turns : List Turn) : Option L.Routine :=
  turns.reverse.findSome? (defined? L off name count)

variable {L off} {name : String} {count : Nat}

theorem latest?_concat (turns : List Turn) (t : Turn) :
    latest? L off name count (turns ++ [t]) =
      (t.defined? L off name count).or (latest? L off name count turns) := by
  rw [latest?, List.reverse_concat, List.findSome?_cons, latest?]
  cases t.defined? L off name count <;> rfl

theorem isSome_latest? {turns : List Turn} :
    (latest? L off name count turns).isSome = true ↔
      ∃ t ∈ turns, (t.defined? L off name count).isSome = true := by
  simp [latest?, List.findSome?_isSome_iff]

end Turn

namespace Context

variable (p : Port L ω γ)

/-- The given turns lead from the first context to the second one, with some answers of the
world. -/
inductive Ran (c : Context L) : List Turn → Context L → Prop
  | start : Ran c [] c
  | turn {turns : List Turn} {c₁ c₂ : Context L} {t : Turn} : Ran c turns c₁ →
      (c₁.run p t.location t.text).CanEnd (t.outcome, c₂) → Ran c (turns ++ [t]) c₂

def runAll (r : Runner ω γ) : List (String × String) → Context L → World ω γ →
    Option (List Turn × Context L)
  | [], c, _ => some ([], c)
  | (location, text) :: rest, c, w =>
    (r.run (c.run p location text) w).bind fun x =>
      (runAll r rest x.1.2 x.2).map fun y => (⟨location, text, x.1.1⟩ :: y.1, y.2)

variable {p}

/-- What a runner does in a context is a history of it. -/
theorem Ran.runAll {r : Runner ω γ} {c c₁ c₂ : Context L} {before after : List Turn}
    {texts : List (String × String)} {w : World ω γ} (h : Ran p c before c₁)
    (hall : c₁.runAll p r texts w = some (after, c₂)) : Ran p c (before ++ after) c₂ := by
  induction texts generalizing before after c₁ w with
  | nil =>
    cases hall
    simpa using h
  | cons x texts ih =>
    obtain ⟨location, text⟩ := x
    obtain ⟨⟨⟨outcome, c'⟩, w'⟩, hrun, hall⟩ := Option.bind_eq_some_iff.mp hall
    obtain ⟨⟨rest, c''⟩, hrest, heq⟩ := Option.map_eq_some_iff.mp hall
    cases heq
    rw [List.append_cons]
    exact ih (h.turn (t := ⟨location, text, outcome⟩) (Program.canEnd_of_run hrun)) hrest

variable {c c' : Context L}

theorem run_of_error {location text : String} {f : TextFault}
    (h : L.compile c.kit.off text = .error f) :
    c.run p location text = .done (.failed (.compile f.message f.line), c) := by
  rw [run, h]

theorem run_of_ok {location text : String} {t : L.Tree} (h : L.compile c.kit.off text = .ok t) :
    c.run p location text = (c.announce p (L.merge c.shared t)).bind fun slot =>
      (p.play ⟨c.kit, some slot⟩ (L.run c.kit.toRules location (L.merge c.shared t) c.scope)).bind
        fun r => .done (L.outcomeOf r.1, c.after t slot r) := by
  rw [run, h]

@[simp] theorem kit_after (c : Context L) (t : L.Tree) (slot : Nat)
    (r : Ended L.Datum Unit × L.Scope) : (c.after t slot r).kit = c.kit := by
  unfold after
  dsimp only
  split <;> rfl

theorem shared_after (c : Context L) (t : L.Tree) (slot : Nat)
    (r : Ended L.Datum Unit × L.Scope) : (c.after t slot r).shared =
      match L.outcomeOf r.1 with
      | .done _ => L.combine c.shared (L.functionsOnly t)
      | _ => c.shared := by
  obtain ⟨e, s⟩ := r
  cases e <;> rfl

/-- What one turn does to a context: it adds the functions of a script that ran to its end. -/
theorem shared_of_run {t : Turn} (h : (c.run p t.location t.text).CanEnd (t.outcome, c')) :
    c'.kit = c.kit ∧ c'.shared = match t.completed? L c.kit.off with
      | some tree => L.combine c.shared (L.functionsOnly tree)
      | none => c.shared := by
  obtain ⟨location, text, outcome⟩ := t
  cases hread : L.compile c.kit.off text with
  | error f =>
    rw [run_of_error hread] at h
    cases h
    exact ⟨rfl, rfl⟩
  | ok tree =>
    rw [run_of_ok hread] at h
    obtain ⟨slot, -, h⟩ := Program.canEnd_bind.mp h
    obtain ⟨r, -, hr⟩ := Program.canEnd_bind.mp h
    obtain ⟨houtcome, rfl⟩ : L.outcomeOf r.1 = outcome ∧ c.after tree slot r = c' :=
      Prod.mk.inj hr
    refine ⟨kit_after c tree slot r, ?_⟩
    rw [shared_after, Turn.completed?, hread, houtcome]
    cases outcome <;> rfl

/-- The scripts that may have run in a context do not change what it is made of, leave no statements
behind, and of the functions with one name and number of parameters the latest. -/
theorem Ran.shared (hm : L.Merging) {spec : ContextSpec} {limits : Limits} {turns : List Turn}
    (h : Ran p (ofSpec L limits spec) turns c) :
    c.kit = (ofSpec L limits spec).kit ∧ L.statements c.shared = [] ∧
      ∀ name count, L.routine? c.shared name count = Turn.latest? L c.kit.off name count turns := by
  induction h with
  | start => exact ⟨rfl, hm.statements_empty, fun name count => routine?_empty L name count⟩
  | @turn turns c₁ c₂ t _ hrun ih =>
    obtain ⟨hkit, hstatements, hlibrary⟩ := ih
    obtain ⟨hkit', hshared⟩ := shared_of_run hrun
    refine ⟨hkit'.trans hkit, ?_, fun name count => ?_⟩
    · rw [hshared]
      cases t.completed? L c₁.kit.off with
      | none => exact hstatements
      | some tree =>
        dsimp only
        rw [hm.statements_combine, hm.statements_functionsOnly, hstatements]
        rfl
    · rw [Turn.latest?_concat, hkit', ← hlibrary, Turn.defined?, hshared]
      cases t.completed? L c₁.kit.off with
      | none => rfl
      | some tree =>
        dsimp only
        rw [hm.routine?_combine, hm.routine?_functionsOnly]
        rfl

/-- **A context builds on the scripts that ran to their end.** Whatever texts have run in it: a text
that is no script changes nothing. Of each name and number of parameters the context has the
function of the last script that ran to its end and defines one; the next script sees it, unless it
defines one itself, and runs its own statements and no others. The names of a context are those that
stand for something: a variable, a function of the host, or a function of a script that ran to its
end. -/
theorem library_of_history (hs : L.Scoped) (hm : L.Merging) {limits : Limits} {spec : ContextSpec}
    {turns : List Turn} (h : Ran p (ofSpec L limits spec) turns c) :
    (∀ location text f, L.compile c.kit.off text = .error f →
      c.run p location text = .done (.failed (.compile f.message f.line), c)) ∧
    (∀ name count, L.routine? c.shared name count = Turn.latest? L c.kit.off name count turns) ∧
    (∀ location text t, L.compile c.kit.off text = .ok t →
      let runnable := L.merge c.shared t
      (c.run p location text = (c.announce p runnable).bind fun slot =>
        (p.play ⟨c.kit, some slot⟩ (L.run c.kit.toRules location runnable c.scope)).bind fun r =>
          .done (L.outcomeOf r.1, c.after t slot r)) ∧
      (∀ name count, L.routine? runnable name count =
        (L.routine? t name count).or (Turn.latest? L c.kit.off name count turns)) ∧
      L.statements runnable = L.statements t) ∧
    ∀ name, (c.has name = true ↔ name ∈ c.names) ∧
      (c.has name = true ↔ (L.find? c.scope name).isSome = true ∨
        c.kit.functions.contains name = true ∨
        ∃ t ∈ turns, ∃ count, (t.defined? L c.kit.off name count).isSome = true) := by
  obtain ⟨-, hstatements, hlibrary⟩ := h.shared hm
  refine ⟨fun location text f => run_of_error, hlibrary,
    fun location text t hread => ⟨run_of_ok hread, fun name count => ?_, ?_⟩,
    fun name => ⟨(mem_names_iff hs).symm, ?_⟩⟩
  · rw [hm.routine?_merge, hlibrary]
  · rw [hm.statements_merge, hstatements, List.nil_append]
  · rw [has, Bool.or_eq_true, Bool.or_eq_true, or_assoc, hs.contains_eq, exists_routine?_iff]
    simp only [hlibrary, Turn.isSome_latest?]
    refine or_congr_right (or_congr_right ?_)
    constructor
    · rintro ⟨count, t, ht, hdefined⟩
      exact ⟨t, ht, count, hdefined⟩
    · rintro ⟨t, ht, count, hdefined⟩
      exact ⟨count, t, ht, hdefined⟩

namespace Sample

open Script (language)

def fresh : Context language := .ofSpec language .default ⟨"pack", [], .standard⟩

/-- What becomes of three texts. The second one fails after it has defined functions. -/
def turns : List Turn :=
  [⟨"a.rhai", "fn f() { 1 } fn g() { 2 }", .done ()⟩,
    ⟨"b.rhai", "fn f() \x7b let x = 3; x \x7d fn h() { 3 } throw 1;",
      .failed (.runtime "Runtime error: 1" (some 1))⟩,
    ⟨"c.rhai", "fn g() \x7b let x = 4; x \x7d f()", .done ()⟩]

def statements (found : Option Script.Routine) : Option Nat := found.map fun r => r.body.length

end Sample

/-- After three texts there is `f` of the first one, which the second one defined again in vain, `g`
of the third one, and no `h`. A fourth text that is no script changes nothing, and one that is a
script runs its own statements. -/
theorem library_of_history_sample : ∃ c, Ran Script.barePort Sample.fresh Sample.turns c ∧
    Sample.statements (Script.language.routine? c.shared "f" 0) = some 1 ∧
    Sample.statements (Script.language.routine? c.shared "g" 0) = some 2 ∧
    (Script.language.routine? c.shared "h" 0).isNone = true ∧ c.has "f" = true ∧ "f" ∈ c.names ∧
    (∃ e, c.run Script.barePort "d.rhai" "fn" = .done (.failed e, c)) ∧
    ∃ t : Script.Tree, Script.compile c.kit.off "f()" = .ok t ∧
      (Script.Tree.merge c.shared t).body = t.body := by
  have hruns : (Sample.fresh.runAll Script.barePort Script.bareRunner
      (Sample.turns.map fun t => (t.location, t.text)) (.fresh Script.Heap.empty)).map
        (fun r => r.1) = some Sample.turns := by decide +kernel
  obtain ⟨⟨turns, c⟩, hall, hturns⟩ := Option.map_eq_some_iff.mp hruns
  obtain rfl : turns = Sample.turns := hturns
  have hran : Ran Script.barePort Sample.fresh Sample.turns c := Ran.runAll .start hall
  obtain ⟨hrefused, hlibrary, hread, hnames⟩ :=
    library_of_history Script.language_scoped Script.language_merging hran
  have hkit : c.kit.off = Sample.fresh.kit.off :=
    congrArg (fun k : Kit => k.off) (hran.shared Script.language_merging).1
  have hhas : c.has "f" = true := by
    refine (hnames "f").2.mpr (.inr (.inr ⟨Sample.turns[0], List.mem_cons_self, 0, ?_⟩))
    rw [hkit]
    decide +kernel
  have hf : Sample.statements
      (Turn.latest? Script.language Sample.fresh.kit.off "f" 0 Sample.turns) = some 1 := by
    decide +kernel
  have hg : Sample.statements
      (Turn.latest? Script.language Sample.fresh.kit.off "g" 0 Sample.turns) = some 2 := by
    decide +kernel
  have hh : (Turn.latest? Script.language Sample.fresh.kit.off "h" 0 Sample.turns).isNone =
      true := by
    decide +kernel
  have hbad : (Script.compile Sample.fresh.kit.off "fn").toOption.isNone = true := by
    decide +kernel
  have hgood : (Script.compile Sample.fresh.kit.off "f()").toOption.isSome = true := by
    decide +kernel
  obtain ⟨f, hfault⟩ := Script.exists_compile_eq_error (Option.isNone_iff_eq_none.mp hbad)
  obtain ⟨t, ht⟩ := Option.isSome_iff_exists.mp hgood
  have hok := Script.compile_eq_ok ht
  refine ⟨c, hran, by rw [hlibrary, hkit, hf], by rw [hlibrary, hkit, hg],
    by rw [hlibrary, hkit, hh], hhas, (hnames "f").1.mp hhas, ⟨_, hrefused _ _ f (hkit ▸ hfault)⟩,
    ⟨t, hkit ▸ hok, (hread "d.rhai" _ t (hkit ▸ hok)).2.2⟩⟩

end Context

end PackHost.Language
