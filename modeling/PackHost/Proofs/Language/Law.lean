import PackHost.Proofs.Language.Course

/-!
# What is assumed of a language

The laws of a language that the theorems about contexts rely on, each where it is needed: values
come back as they went in (`Lossless`), variables are found by name (`Scoped`), trees are put
together as their functions and statements are (`Merging`), words that are off do not compile
(`Disables`), and errors of calls come out as they went in but for the calls and modules around
them (`Propagates`).
-/

namespace PackHost.Language

variable (L : Language)

/-- Values are what they are made of, and no value is of two types. -/
structure Lossless : Prop where
  test_make : ∀ (t : Datatype) (c : t.Content L.Datum L.Pointer), L.test t (L.make t c) = some c
  test_make_of_ne : ∀ {t t' : Datatype}, t' ≠ t → ∀ c : t.Content L.Datum L.Pointer,
    L.test t' (L.make t c) = none

/-- Of the variables with a name the newest is found, and the variables that are found are those
that there are. -/
structure Scoped : Prop where
  find?_noVariables : ∀ name, L.find? L.noVariables name = none
  find?_push : ∀ s name constant d other, L.find? (L.push name constant d s) other =
    if other = name then some (.own d) else L.find? s other
  contains_eq : ∀ s name, L.contains s name = (L.find? s name).isSome
  mem_variableNames : ∀ s name, name ∈ L.variableNames s ↔ (L.find? s name).isSome = true

/-- A tree that is put together has the statements of both, one after another, and the functions of
both, where those of the second one replace others of the same name and number of parameters. -/
structure Merging : Prop where
  statements_empty : L.statements L.empty = []
  routine?_merge : ∀ s t name count,
    L.routine? (L.merge s t) name count = (L.routine? t name count).or (L.routine? s name count)
  statements_merge : ∀ s t, L.statements (L.merge s t) = L.statements s ++ L.statements t
  routine?_combine : ∀ s t name count,
    L.routine? (L.combine s t) name count = (L.routine? t name count).or (L.routine? s name count)
  statements_combine : ∀ s t, L.statements (L.combine s t) = L.statements s ++ L.statements t
  routine?_functionsOnly : ∀ t name count,
    L.routine? (L.functionsOnly t) name count = L.routine? t name count
  statements_functionsOnly : ∀ t, L.statements (L.functionsOnly t) = []

/-- A text that compiles calls none of the keywords that are off. -/
def Disables (keywords : List String) (calls : L.Tree → String → Prop) : Prop :=
  ∀ off text t name, L.compile off text = .ok t → name ∈ off → name ∈ keywords → ¬ calls t name

/-- Such an error is what a script gets of the response. -/
inductive Tells : Response L.Datum → EvalError L.Datum → Prop
  | raised (message : String) (taken : Bool) (place : Option Source.Position) :
      Tells (.answered (.raised message) taken) (.raised (L.make .text message) place)
  | system (function message : String) (taken : Bool) :
      Tells (.answered (.system function message) taken) (.system function message)
  | fixed (message : String) (place : Option Source.Position) : Tells .fixed (.other message place)
  | missing (message : String) (place : Option Source.Position) :
      Tells .missing (.other message place)

variable {L} in
theorem Tells.eq_make {r : Response L.Datum} {d : L.Datum} {place : Option Source.Position}
    (h : L.Tells r (.raised d place)) : ∃ message, d = L.make .text message := by
  cases h
  exact ⟨_, rfl⟩

variable {L} in
theorem Tells.exists_eq_system {r : Response L.Datum} {function message : String}
    (h : L.Tells r (.system function message)) :
    ∃ taken, r = .answered (.system function message) taken := by
  cases h
  exact ⟨_, rfl⟩

variable {L} in
def Fails (r : Response L.Datum) : Prop := ∃ e, L.Tells r e

theorem not_fails_own : ¬ Fails (.own : Response L.Datum) := by
  rintro ⟨e, h⟩
  cases h

theorem not_fails_value (d : L.Datum) (taken : Bool) : ¬ Fails (.answered (.value d) taken) := by
  rintro ⟨e, h⟩
  cases h

theorem not_fails_crashed (m : Option String) (taken : Bool) :
    ¬ Fails (.answered (.crashed m) taken : Response L.Datum) := by
  rintro ⟨e, h⟩
  cases h

/-- An evaluation ends with the error of the call that failed and was not caught, behind the calls
and modules around it, and with no error of the system but one of a call. -/
structure Carries {α : Type} (hs : List (Happening L.Datum)) (x : Ended L.Datum α) : Prop where
  outward : ∀ r, Fails r → Uncaught r hs → ∃ e, x = .failed e ∧ L.Tells r e.innermost
  inward : ∀ e function message, x = .failed e → e.innermost = .system function message →
    ∃ taken, Uncaught (.answered (.system function message) taken) hs

/-- Errors of calls propagate unchanged apart from the calls and modules around them. -/
structure Propagates : Prop where
  run : ∀ rules location t scope, (L.run rules location t scope).Ends (fun hs x => L.Carries hs x.1) []
  call : ∀ rules t f args, (L.call rules t f args).Ends L.Carries []

end PackHost.Language
