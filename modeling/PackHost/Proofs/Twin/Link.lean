import Mathlib.Data.List.Forall2
import Mathlib.Data.Option.Basic
import PackHost.World.Basic

/-!
# Links between two worlds

Two runs number their functions, the parts of their engines' memories and their registrations each
in its own way. A `Link` says which numbers mean the same on both sides; it only ever grows.
`Matches` carries a relation between functions over to values, to entries of a namespace and to
outcomes.
-/

namespace PackHost

inductive Kind where
  | function
  | realm
  | registration
deriving DecidableEq

/-- Pairs of numbers that mean the same on the left and on the right; no number has two partners. -/
structure Link where
  pairs : Kind → Nat → Nat → Prop
  left_unique : ∀ {k a a' b}, pairs k a b → pairs k a' b → a = a'
  right_unique : ∀ {k a b b'}, pairs k a b → pairs k a b' → b = b'

namespace Link

instance : CoeFun Link fun _ => Kind → Nat → Nat → Prop := ⟨Link.pairs⟩

instance : LE Link := ⟨fun ρ ρ' => ∀ k a b, ρ k a b → ρ' k a b⟩

@[refl] theorem le_refl (ρ : Link) : ρ ≤ ρ := fun _ _ _ h => h

theorem le_trans {ρ ρ' ρ'' : Link} (h : ρ ≤ ρ') (h' : ρ' ≤ ρ'') : ρ ≤ ρ'' :=
  fun k a b hab => h' k a b (h k a b hab)

/-- Every number with the given property is paired with itself. -/
def diagonal (H : Kind → Nat → Prop) : Link where
  pairs k a b := a = b ∧ H k a
  left_unique h h' := h.1.trans h'.1.symm
  right_unique h h' := h.1.symm.trans h'.1

def HasRight (ρ : Link) (k : Kind) (a : Nat) : Prop := ∃ b, ρ k a b

def HasLeft (ρ : Link) (k : Kind) (b : Nat) : Prop := ∃ a, ρ k a b

/-- The link with one more pair of numbers that have no partners yet. -/
def add (ρ : Link) (k : Kind) (a b : Nat) (ha : ¬ρ.HasRight k a) (hb : ¬ρ.HasLeft k b) : Link where
  pairs k' x y := ρ k' x y ∨ (k' = k ∧ x = a ∧ y = b)
  left_unique := by
    rintro k' x x' y (h | ⟨rfl, rfl, rfl⟩) (h' | ⟨hk, hx, hy⟩)
    · exact ρ.left_unique h h'
    · exact absurd ⟨x, hk ▸ hy ▸ h⟩ hb
    · exact absurd ⟨x', h'⟩ hb
    · exact hx.symm
  right_unique := by
    rintro k' x y y' (h | ⟨rfl, rfl, rfl⟩) (h' | ⟨hk, hx, hy⟩)
    · exact ρ.right_unique h h'
    · exact absurd ⟨y, hk ▸ hx ▸ h⟩ ha
    · exact absurd ⟨y', h'⟩ ha
    · exact hy.symm

section

variable {ρ : Link} {k : Kind} {a b : Nat} {ha : ¬ρ.HasRight k a} {hb : ¬ρ.HasLeft k b}

theorem le_add : ρ ≤ ρ.add k a b ha hb := fun _ _ _ h => .inl h

theorem add_self : (ρ.add k a b ha hb) k a b := .inr ⟨rfl, rfl, rfl⟩

theorem add_of_ne {k' : Kind} (h : k' ≠ k) {x y : Nat} :
    (ρ.add k a b ha hb) k' x y ↔ ρ k' x y := by
  constructor
  · rintro (hxy | ⟨rfl, -, -⟩)
    · exact hxy
    · exact absurd rfl h
  · exact .inl

end

end Link

/-! ## Values -/

theorem rel_imp {α β : Type} {R S : α → β → Prop} (h : ∀ a b, R a b → S a b) {x : Option α}
    {y : Option β} (hxy : Option.Rel R x y) : Option.Rel S x y := by
  cases hxy with
  | some hab => exact .some (h _ _ hab)
  | none => exact .none

theorem rel_isSome {α β : Type} {R : α → β → Prop} {x : Option α} {y : Option β}
    (h : Option.Rel R x y) : x.isSome = y.isSome := by
  cases h <;> rfl

theorem rel_cases {α β : Type} {R : α → β → Prop} {x : Option α} {y : Option β}
    (h : Option.Rel R x y) :
    (∃ a b, x = some a ∧ y = some b ∧ R a b) ∨ x = none ∧ y = none := by
  cases h with
  | some hab => exact .inl ⟨_, _, rfl, rfl, hab⟩
  | none => exact .inr ⟨rfl, rfl⟩

theorem rel_map {α β α' β' : Type} {R : α → β → Prop} {S : α' → β' → Prop} {f : α → α'} {g : β → β'}
    (h : ∀ a b, R a b → S (f a) (g b)) {x : Option α} {y : Option β} (hxy : Option.Rel R x y) :
    Option.Rel S (x.map f) (y.map g) := by
  cases hxy with
  | some hab => exact .some (h _ _ hab)
  | none => exact .none

theorem rel_bind {α β α' β' : Type} {R : α → β → Prop} {S : α' → β' → Prop} {f : α → Option α'}
    {g : β → Option β'} (h : ∀ a b, R a b → Option.Rel S (f a) (g b)) {x : Option α}
    {y : Option β} (hxy : Option.Rel R x y) : Option.Rel S (x.bind f) (y.bind g) := by
  cases hxy with
  | some hab => exact h _ _ hab
  | none => exact .none

theorem rel_euclidean {α β γ : Type} {R : α → γ → Prop} {S : β → γ → Prop} {T : α → β → Prop}
    (h : ∀ a b c, R a c → S b c → T a b) {x : Option α} {y : Option β} {z : Option γ}
    (hx : Option.Rel R x z) (hy : Option.Rel S y z) : Option.Rel T x y := by
  cases hx with
  | none =>
    cases hy
    exact .none
  | some hac =>
    cases hy with
    | some hbc => exact .some (h _ _ _ hac hbc)

/-- Functions that have the same name and take the same number of arguments. -/
def Function.Resembles (f g : Function) : Prop := f.name = g.name ∧ f.arity = g.arity

def Function.Linked (ρ : Link) (f g : Function) : Prop :=
  f.Resembles g ∧ ρ .function f.id g.id

theorem Function.Linked.mono {ρ ρ' : Link} (h : ρ ≤ ρ') {f g : Function} (hfg : f.Linked ρ g) :
    f.Linked ρ' g :=
  ⟨hfg.1, h _ _ _ hfg.2⟩

namespace Value

mutual

/-- Two values are the same, apart from the functions in them, which are related. -/
def Matches (R : Function → Function → Prop) : Value → Value → Prop
  | .unit, .unit => True
  | .bool a, .bool b => a = b
  | .int a, .int b => a = b
  | .float a, .float b => a = b
  | .text a, .text b => a = b
  | .array a, .array b => ItemsMatch R a b
  | .map a, .map b => EntriesMatch R a b
  | .function f, .function g => R f g
  | _, _ => False

def ItemsMatch (R : Function → Function → Prop) : List Value → List Value → Prop
  | [], [] => True
  | a :: as, b :: bs => Matches R a b ∧ ItemsMatch R as bs
  | _, _ => False

def EntriesMatch (R : Function → Function → Prop) :
    List (String × Value) → List (String × Value) → Prop
  | [], [] => True
  | a :: as, b :: bs => (a.1 = b.1 ∧ Matches R a.2 b.2) ∧ EntriesMatch R as bs
  | _, _ => False

end

section

variable {R S : Function → Function → Prop}

mutual

theorem Matches.imp (h : ∀ f g, R f g → S f g) {v v' : Value} (hv : v.Matches R v') :
    v.Matches S v' := by
  match v, v' with
  | .function f, .function g => exact h f g hv
  | .array as, .array bs => exact ItemsMatch.imp h hv
  | .map as, .map bs => exact EntriesMatch.imp h hv
  | .unit, .unit => trivial
  | .bool a, .bool b => exact hv
  | .int a, .int b => exact hv
  | .float a, .float b => exact hv
  | .text a, .text b => exact hv

theorem ItemsMatch.imp (h : ∀ f g, R f g → S f g) {as bs : List Value} (hs : ItemsMatch R as bs) :
    ItemsMatch S as bs := by
  match as, bs with
  | [], [] => trivial
  | a :: as, b :: bs => exact ⟨Matches.imp h hs.1, ItemsMatch.imp h hs.2⟩

theorem EntriesMatch.imp (h : ∀ f g, R f g → S f g) {as bs : List (String × Value)}
    (hs : EntriesMatch R as bs) : EntriesMatch S as bs := by
  match as, bs with
  | [], [] => trivial
  | a :: as, b :: bs => exact ⟨⟨hs.1.1, Matches.imp h hs.1.2⟩, EntriesMatch.imp h hs.2⟩

end

mutual

/-- Values that match a common one match each other. -/
theorem Matches.euclidean (h : ∀ f g i, R f i → R g i → S f g) {v v' u : Value}
    (hv : v.Matches R u) (hv' : v'.Matches R u) : v.Matches S v' := by
  match v, u, v' with
  | .function f, .function i, .function g => exact h f g i hv hv'
  | .array as, .array bs, .array cs => exact ItemsMatch.euclidean h hv hv'
  | .map as, .map bs, .map cs => exact EntriesMatch.euclidean h hv hv'
  | .unit, .unit, .unit => trivial
  | .bool a, .bool b, .bool c => exact Eq.trans hv (Eq.symm hv')
  | .int a, .int b, .int c => exact Eq.trans hv (Eq.symm hv')
  | .float a, .float b, .float c => exact Eq.trans hv (Eq.symm hv')
  | .text a, .text b, .text c => exact Eq.trans hv (Eq.symm hv')
termination_by structural v

theorem ItemsMatch.euclidean (h : ∀ f g i, R f i → R g i → S f g) {as bs cs : List Value}
    (hs : ItemsMatch R as cs) (hs' : ItemsMatch R bs cs) : ItemsMatch S as bs := by
  match as, cs, bs with
  | [], [], [] => trivial
  | a :: as, c :: cs, b :: bs =>
    exact ⟨Matches.euclidean h hs.1 hs'.1, ItemsMatch.euclidean h hs.2 hs'.2⟩
termination_by structural as

theorem EntriesMatch.euclidean (h : ∀ f g i, R f i → R g i → S f g)
    {as bs cs : List (String × Value)} (hs : EntriesMatch R as cs) (hs' : EntriesMatch R bs cs) :
    EntriesMatch S as bs := by
  match as, cs, bs with
  | [], [], [] => trivial
  | (_, a) :: as, c :: cs, b :: bs =>
    exact ⟨⟨hs.1.1.trans hs'.1.1.symm, Matches.euclidean h hs.1.2 hs'.1.2⟩,
      EntriesMatch.euclidean h hs.2 hs'.2⟩
termination_by structural as

end

theorem Matches.functions_or_neither {v v' : Value} (hv : v.Matches R v') :
    (∃ f g, v = .function f ∧ v' = .function g ∧ R f g) ∨
      (∀ f, v ≠ .function f) ∧ ∀ g, v' ≠ .function g := by
  cases v with
  | function f =>
    cases v' with
    | function g => exact .inl ⟨f, g, rfl, rfl, hv⟩
    | _ => cases hv
  | _ =>
    cases v' with
    | function g => cases hv
    | _ => exact .inr ⟨nofun, nofun⟩

/-- What is a function on one side is one on the other. -/
theorem Matches.rel_function {v v' : Value} (hv : v.Matches R v') :
    Option.Rel R v.function? v'.function? := by
  cases v with
  | function f =>
    cases v' with
    | function g => exact .some hv
    | _ => cases hv
  | _ => cases v' <;> first | exact .none | cases hv

theorem Matches.kindName_eq {v v' : Value} (hv : v.Matches R v') : v.kindName = v'.kindName := by
  cases v <;> cases v' <;> first | rfl | cases hv

end

/-- The values are the same, apart from functions in them that are linked. -/
abbrev Linked (ρ : Link) : Value → Value → Prop := Matches (Function.Linked ρ)

theorem Matches.mono {ρ ρ' : Link} (h : ρ ≤ ρ') {v v' : Value} (hv : v.Linked ρ v') :
    v.Linked ρ' v' :=
  hv.imp fun _ _ => .mono h

end Value

/-- The outcomes are of one sort: results that are related, the same failure or the same crash. -/
def Outcome.Matches {α β : Type} (R : α → β → Prop) : Outcome α → Outcome β → Prop
  | .done a, .done b => R a b
  | .failed f, .failed g => f = g
  | .crashed m, .crashed n => m = n
  | _, _ => False

/-- The outcomes are the same, apart from functions that are linked. -/
abbrev Outcome.Linked (ρ : Link) : Outcome Value → Outcome Value → Prop :=
  Outcome.Matches (Value.Linked ρ)

/-- The same names in the same order, with related values. -/
def Table.Matches {α β : Type} (R : α → β → Prop) (t : Table α) (t' : Table β) : Prop :=
  List.Forall₂ (fun e e' => e.1 = e'.1 ∧ R e.2 e'.2) t t'

def Global.Matches (R : Function → Function → Prop) (g g' : Global) : Prop :=
  g.constant = g'.constant ∧ g.value.Matches R g'.value

theorem Global.Matches.mono {ρ ρ' : Link} (h : ρ ≤ ρ') {g g' : Global}
    (hg : g.Matches (Function.Linked ρ) g') : g.Matches (Function.Linked ρ') g' :=
  ⟨hg.1, hg.2.mono h⟩

/-- Handlers that were registered in the same way, with targets that are linked. -/
def Listener.Linked (ρ : Link) : Listener → Listener → Prop
  | .host f, .host g => f.Linked ρ g
  | .script f, .script g => f.Linked ρ g
  | _, _ => False

theorem Listener.Linked.mono {ρ ρ' : Link} (h : ρ ≤ ρ') {l l' : Listener} (hl : l.Linked ρ l') :
    l.Linked ρ' l' := by
  cases l <;> cases l' <;> first | exact Function.Linked.mono h hl | cases hl

theorem Listener.Linked.target {ρ : Link} {l l' : Listener} (hl : l.Linked ρ l') :
    l.target.Linked ρ l'.target := by
  cases l <;> cases l' <;> first | exact hl | cases hl

end PackHost
