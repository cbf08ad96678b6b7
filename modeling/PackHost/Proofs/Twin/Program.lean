import PackHost.Proofs.Twin.Link
import PackHost.World.Program

/-!
# Programs that do alike

Two programs that run side by side, each in its own world. `Scene.Alike` says that they ask for the
same things in the same order, up to linked numbers, and that whatever is answered alike makes them
go on alike. Each may use the state of the embedding program as it likes as long as the parts of it
that are linked are alike again before the next call and at the end. So a program that does alike
with itself in any two states does not depend on what happened before.
-/

namespace PackHost

/-- What is compared of two worlds besides their functions and registrations: the parts of the state
of the embedding program that engines use, what engines create, and their contexts. -/
structure Likeness (ω γ κ : Type) where
  /-- What a part of the state holds. -/
  Memory : Type
  /-- What the part with the given number holds, if there is such a part. -/
  part : ω → Nat → Option Memory
  /-- Parts of two states that hold the same. -/
  recalls : Link → Memory → Memory → Prop
  /-- Functions of engines that do the same. -/
  code : Link → γ → γ → Prop
  /-- Contexts in which the same has happened. -/
  context : Link → κ → κ → Prop
  recalls_mono : ∀ {ρ ρ' m m'}, ρ ≤ ρ' → recalls ρ m m' → recalls ρ' m m'
  code_mono : ∀ {ρ ρ' c c'}, ρ ≤ ρ' → code ρ c c' → code ρ' c c'
  context_mono : ∀ {ρ ρ' c c'}, ρ ≤ ρ' → context ρ c c' → context ρ' c c'

/-- Two runs that are compared. -/
structure Scene (ω γ κ : Type) extends Likeness ω γ κ where
  /-- The desk at which both of them happen. -/
  desk : Nat
  /-- Whether everything is compared: the buses hold the same, and so may be used by anyone. -/
  strict : Prop
  /-- Whether the bus is left to scripts: others may post and count, but register and remove
  nothing. -/
  tame : Prop

/-- Everything at the desk is compared. -/
def Likeness.strictly {ω γ κ : Type} (L : Likeness ω γ κ) (d : Nat) : Scene ω γ κ :=
  { L with desk := d, strict := True, tame := False }

/-- Whether the request is to register handlers or to take some out. -/
def BusRequest.isEdit : BusRequest → Bool
  | .listen .. => true
  | .remove _ => true
  | .clear => true
  | .count _ => false
  | .post .. => false

/-- Requests that are the same up to linked numbers. -/
inductive BusRequest.Linked (ρ : Link) : BusRequest → BusRequest → Prop
  | listen (event : String) {f g : Function} :
      f.Linked ρ g → Linked ρ (.listen event f) (.listen event g)
  | remove {ids ids' : List Nat} :
      List.Forall₂ (ρ .registration) ids ids' → Linked ρ (.remove ids) (.remove ids')
  | clear : Linked ρ .clear .clear
  | count (event : String) : Linked ρ (.count event) (.count event)
  | post (event : String) {v v' : Value} :
      v.Linked ρ v' → Linked ρ (.post event v) (.post event v')

/-- Answers to a request that mean the same. -/
def BusRequest.Answers (ρ : Link) : BusRequest → Nat → Nat → Prop
  | .listen .. => ρ .registration
  | _ => Eq

/-- The program comes to its end, and calls nothing and asks no bus for anything on the way. -/
inductive Program.Reads {ω γ α : Type} : Program ω γ α → Prop
  | done (a : α) : Reads (.done a)
  | get {next : ω → Program ω γ α} : (∀ s, Reads (next s)) → Reads (.get next)
  | set (s : ω) {next : Program ω γ α} : Reads next → Reads (.set s next)
  | create (name : String) (arity : Option Nat) (code : γ) {next : Function → Program ω γ α} :
      (∀ f, Reads (next f)) → Reads (.create name arity code next)

namespace Scene

variable {ω γ κ α β α' β' : Type} (S : Scene ω γ κ)

/-- What is linked of the two states is there and holds the same. -/
def Agree (ρ : Link) (s s' : ω) : Prop :=
  ∀ k k', ρ .realm k k' →
    ∃ m m', S.part s k = some m ∧ S.part s' k' = some m' ∧ S.recalls ρ m m'

/-- The second state has all parts of the first, and those that are not linked are the same. -/
structure Spares (linked : Nat → Prop) (s t : ω) : Prop where
  kept : ∀ k, S.part s k ≠ none → S.part t k ≠ none
  same : ∀ k, S.part s k ≠ none → ¬linked k → S.part t k = S.part s k

/-- The programs do alike from the given states on, and their results are related. -/
inductive Alike (A : Link → α → β → Prop) :
    Link → ω → ω → Program ω γ α → Program ω γ β → Prop
  | done {ρ : Link} {s s' : ω} {a : α} {b : β} :
      S.Agree ρ s s' → A ρ a b → Alike A ρ s s' (.done a) (.done b)
  | stuck {ρ : Link} {s s' : ω} : Alike A ρ s s' .stuck .stuck
  | getLeft {ρ : Link} {s s' : ω} {next : ω → Program ω γ α} {q : Program ω γ β} :
      Alike A ρ s s' (next s) q → Alike A ρ s s' (.get next) q
  | getRight {ρ : Link} {s s' : ω} {p : Program ω γ α} {next : ω → Program ω γ β} :
      Alike A ρ s s' p (next s') → Alike A ρ s s' p (.get next)
  | setLeft {ρ : Link} {s s' t : ω} {next : Program ω γ α} {q : Program ω γ β} :
      S.Spares (ρ.HasRight .realm) s t → Alike A ρ t s' next q → Alike A ρ s s' (.set t next) q
  | setRight {ρ : Link} {s s' t' : ω} {p : Program ω γ α} {next : Program ω γ β} :
      S.Spares (ρ.HasLeft .realm) s' t' → Alike A ρ s t' p next →
      Alike A ρ s s' p (.set t' next)
  | open_ {ρ : Link} {s s' t t' : ω} {a b : Nat} {next : Program ω γ α} {next' : Program ω γ β}
      (ha : ¬ρ.HasRight .realm a) (hb : ¬ρ.HasLeft .realm b) :
      S.part s a = none → S.part s' b = none →
      S.Spares (ρ.HasRight .realm) s t → S.Spares (ρ.HasLeft .realm) s' t' →
      Alike A (ρ.add .realm a b ha hb) t t' next next' →
      Alike A ρ s s' (.set t next) (.set t' next')
  | call {ρ : Link} {s s' : ω} {f g : Function} {args args' : List Value}
      {next : Outcome Value → Program ω γ α} {next' : Outcome Value → Program ω γ β} :
      S.Agree ρ s s' → f.Linked ρ g → List.Forall₂ (Value.Linked ρ) args args' →
      (∀ ρ₁ t t' x y, ρ ≤ ρ₁ → S.Agree ρ₁ t t' → x.Linked ρ₁ y →
        Alike A ρ₁ t t' (next x) (next' y)) →
      Alike A ρ s s' (.call f args next) (.call g args' next')
  | create {ρ : Link} {s s' : ω} {name : String} {arity : Option Nat} {c c' : γ}
      {next : Function → Program ω γ α} {next' : Function → Program ω γ β} :
      S.Agree ρ s s' → S.code ρ c c' →
      (∀ ρ₁ t t' f g, ρ ≤ ρ₁ → S.Agree ρ₁ t t' → f.Linked ρ₁ g →
        Alike A ρ₁ t t' (next f) (next' g)) →
      Alike A ρ s s' (.create name arity c next) (.create name arity c' next')
  | bus {ρ : Link} {s s' : ω} {request request' : BusRequest}
      {next : Nat → Program ω γ α} {next' : Nat → Program ω γ β} :
      S.strict → (S.tame → request.isEdit = false) → S.Agree ρ s s' → request.Linked ρ request' →
      (∀ ρ₁ t t' n n', ρ ≤ ρ₁ → S.Agree ρ₁ t t' → request.Answers ρ₁ n n' →
        Alike A ρ₁ t t' (next n) (next' n')) →
      Alike A ρ s s' (.bus S.desk request next) (.bus S.desk request' next')

variable {S}

/-- Programs that do alike go on alike with what does alike. -/
theorem Alike.bind {A : Link → α → β → Prop} {B : Link → α' → β' → Prop} {ρ : Link} {s s' : ω}
    {p : Program ω γ α} {q : Program ω γ β} {k : α → Program ω γ α'} {l : β → Program ω γ β'}
    (h : S.Alike A ρ s s' p q)
    (hkl : ∀ ρ₁ t t' a b, ρ ≤ ρ₁ → S.Agree ρ₁ t t' → A ρ₁ a b → S.Alike B ρ₁ t t' (k a) (l b)) :
    S.Alike B ρ s s' (p.bind k) (q.bind l) := by
  induction h with
  | done hagree hab => exact hkl _ _ _ _ _ (Link.le_refl _) hagree hab
  | stuck => exact .stuck
  | getLeft _ ih => exact .getLeft (ih hkl)
  | getRight _ ih => exact .getRight (ih hkl)
  | setLeft hspares _ ih => exact .setLeft hspares (ih hkl)
  | setRight hspares _ ih => exact .setRight hspares (ih hkl)
  | open_ ha hb hnone hnone' hleft hright _ ih =>
    refine .open_ ha hb hnone hnone' hleft hright (ih ?_)
    intro ρ₁ t t' a b hle
    exact hkl ρ₁ t t' a b (Link.le_trans Link.le_add hle)
  | call hagree hf hargs _ ih =>
    refine .call hagree hf hargs fun ρ₁ t t' x y hle ht hxy => ih ρ₁ t t' x y hle ht hxy ?_
    intro ρ₂ u u' a b hle'
    exact hkl ρ₂ u u' a b (Link.le_trans hle hle')
  | create hagree hcode _ ih =>
    refine .create hagree hcode fun ρ₁ t t' f g hle ht hfg => ih ρ₁ t t' f g hle ht hfg ?_
    intro ρ₂ u u' a b hle'
    exact hkl ρ₂ u u' a b (Link.le_trans hle hle')
  | bus hstrict htame hagree hrequest _ ih =>
    refine .bus hstrict htame hagree hrequest fun ρ₁ t t' n n' hle ht hn =>
      ih ρ₁ t t' n n' hle ht hn ?_
    intro ρ₂ u u' a b hle'
    exact hkl ρ₂ u u' a b (Link.le_trans hle hle')

end Scene

end PackHost
