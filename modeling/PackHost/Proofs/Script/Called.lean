import PackHost.Proofs.Script.Word
import PackHost.Script.Parser

/-!
# What is called in a tree

`CallsOnly` says of a tree that all calls in it are of names with a property. `Parse.Keeps` says of
a step of reading that it keeps what is known of the tokens and of the functions, and that what it
reads has a property; there is one lemma for each way to put steps together and for each small step.
-/

namespace PackHost.Script

/-! ## Calls in trees -/

mutual

/-- All calls in the expression are of names with the property. -/
def Expr.CallsOnly (P : String → Prop) : Expr → Prop
  | .literal _ => True
  | .template parts => Expr.AllCallOnly P parts
  | .variable_ .. => True
  | .array items => Expr.AllCallOnly P items
  | .map entries => Expr.EntriesCallOnly P entries
  | .call name args _ => P name ∧ Expr.AllCallOnly P args
  | .unary _ e _ => e.CallsOnly P
  | .binary _ left right _ => left.CallsOnly P ∧ right.CallsOnly P
  | .and left right _ _ => left.CallsOnly P ∧ right.CallsOnly P
  | .or left right _ _ => left.CallsOnly P ∧ right.CallsOnly P
  | .otherwise left right => left.CallsOnly P ∧ right.CallsOnly P
  | .contained value collection _ _ => value.CallsOnly P ∧ collection.CallsOnly P
  | .chain root links => root.CallsOnly P ∧ Link.AllCallOnly P links
  | .lambda routine _ => routine.CallsOnly P
  | .block body => Stmt.AllCallOnly P body
  | .cond test _ yes no => test.CallsOnly P ∧ Stmt.AllCallOnly P yes ∧ Stmt.AllCallOnly P no
  | .select subject arms => subject.CallsOnly P ∧ Arm.AllCallOnly P arms

/-- All calls in the expressions are of names with the property. -/
def Expr.AllCallOnly (P : String → Prop) : List Expr → Prop
  | [] => True
  | e :: es => e.CallsOnly P ∧ Expr.AllCallOnly P es

def Expr.EntriesCallOnly (P : String → Prop) : List (String × Expr) → Prop
  | [] => True
  | e :: es => e.2.CallsOnly P ∧ Expr.EntriesCallOnly P es

/-- All calls in the expression, if there is one, are of names with the property. -/
def Expr.SomeCallsOnly (P : String → Prop) : Option Expr → Prop
  | none => True
  | some e => e.CallsOnly P

def Link.CallsOnly (P : String → Prop) : Link → Prop
  | .property .. => True
  | .index e _ => e.CallsOnly P
  | .method name args _ => P name ∧ Expr.AllCallOnly P args

def Link.AllCallOnly (P : String → Prop) : List Link → Prop
  | [] => True
  | l :: ls => l.CallsOnly P ∧ Link.AllCallOnly P ls

def Arm.CallsOnly (P : String → Prop) : Arm → Prop
  | .mk values guard_ _ body =>
    Expr.AllCallOnly P values ∧ Expr.SomeCallsOnly P guard_ ∧ Stmt.AllCallOnly P body

def Arm.AllCallOnly (P : String → Prop) : List Arm → Prop
  | [] => True
  | a :: as => a.CallsOnly P ∧ Arm.AllCallOnly P as

def Stmt.CallsOnly (P : String → Prop) : Stmt → Prop
  | .expr e => e.CallsOnly P
  | .define _ _ value => value.CallsOnly P
  | .assign target _ value _ => target.CallsOnly P ∧ value.CallsOnly P
  | .loop test body _ => Expr.SomeCallsOnly P test ∧ Stmt.AllCallOnly P body
  | .loopAfter body test _ _ => Stmt.AllCallOnly P body ∧ test.CallsOnly P
  | .each _ _ source body _ => source.CallsOnly P ∧ Stmt.AllCallOnly P body
  | .leave value => Expr.SomeCallsOnly P value
  | .next => True
  | .give value => Expr.SomeCallsOnly P value
  | .raise value _ => Expr.SomeCallsOnly P value
  | .rescue body _ handler => Stmt.AllCallOnly P body ∧ Stmt.AllCallOnly P handler

/-- All calls in the statements are of names with the property. -/
def Stmt.AllCallOnly (P : String → Prop) : List Stmt → Prop
  | [] => True
  | s :: ss => s.CallsOnly P ∧ Stmt.AllCallOnly P ss

def Routine.CallsOnly (P : String → Prop) : Routine → Prop
  | .mk _ _ body => Stmt.AllCallOnly P body

end

/-- All calls in the script are of names with the property. -/
structure Tree.CallsOnly (P : String → Prop) (t : Tree) : Prop where
  library : ∀ r ∈ t.library, r.CallsOnly P
  body : Stmt.AllCallOnly P t.body

variable {P : String → Prop}

theorem Stmt.allCallOnly_iff {ss : List Stmt} :
    Stmt.AllCallOnly P ss ↔ ∀ s ∈ ss, s.CallsOnly P := by
  induction ss with
  | nil => exact ⟨fun _ => List.forall_mem_nil _, fun _ => trivial⟩
  | cons s ss ih => rw [Stmt.AllCallOnly, ih, List.forall_mem_cons]

theorem Stmt.AllCallOnly.append {ss us : List Stmt} (hs : Stmt.AllCallOnly P ss)
    (hu : Stmt.AllCallOnly P us) : Stmt.AllCallOnly P (ss ++ us) :=
  Stmt.allCallOnly_iff.mpr
    (List.forall_mem_append.mpr ⟨Stmt.allCallOnly_iff.mp hs, Stmt.allCallOnly_iff.mp hu⟩)

theorem Stmt.AllCallOnly.busy {ss : List Stmt} (h : Stmt.AllCallOnly P ss) :
    Stmt.AllCallOnly P (busy ss) :=
  Stmt.allCallOnly_iff.mpr fun s hs => Stmt.allCallOnly_iff.mp h s (List.mem_filter.mp hs).1

theorem Stmt.AllCallOnly.busyWithLast {ss : List Stmt} (h : Stmt.AllCallOnly P ss) :
    Stmt.AllCallOnly P (busyWithLast ss) := by
  fun_induction Script.busyWithLast ss with
  | case1 => trivial
  | case2 s => exact h
  | case3 s ss _ _ ih => exact ih h.2
  | case4 s ss _ _ ih => exact ⟨h.1, ih h.2⟩

/-! ## What reading keeps -/

/-- The tokens that are left let be called what has the property, and the functions that were read
call nothing else. -/
structure Reading.Sound (P : String → Prop) (r : Reading) : Prop where
  tokens : ∀ t ∈ r.tokens, t.token.Lets P
  library : ∀ f ∈ r.library, f.CallsOnly P

/-- The names that are declared or used do not matter. -/
theorem Reading.Sound.names {r : Reading} (h : r.Sound P) (declared : List (String × Bool))
    (free : List (String × Source.Position)) :
    (⟨r.tokens, declared, free, r.library⟩ : Reading).Sound P :=
  ⟨h.tokens, h.library⟩

namespace Parse

variable {α β : Type} {Q : α → Prop} {R : β → Prop}

/-- Reading something keeps what is known, and what is read has a property. -/
def Keeps (P : String → Prop) (Q : α → Prop) (p : Parse α) : Prop :=
  ∀ r a r', r.Sound P → p r = .ok (a, r') → r'.Sound P ∧ Q a

namespace Keeps

theorem pure {a : α} (h : Q a) : Keeps P Q (pure a) := by
  intro r b r' hr hread
  cases hread
  exact ⟨hr, h⟩

theorem bind {p : Parse β} {k : β → Parse α} (hp : Keeps P R p)
    (hk : ∀ b, R b → Keeps P Q (k b)) : Keeps P Q (p >>= k) := by
  intro r a r'' hr hread
  cases hfirst : p r with
  | error f =>
    have herror : (p >>= k) r = .error f := by
      simp only [Bind.bind, StateT.bind, hfirst, Except.bind]
    rw [herror] at hread
    cases hread
  | ok s =>
    obtain ⟨b, r'⟩ := s
    obtain ⟨hr', hb⟩ := hp r b r' hr hfirst
    have hrest : (p >>= k) r = k b r' := by
      simp only [Bind.bind, StateT.bind, hfirst, Except.bind]
    rw [hrest] at hread
    exact hk b hb r' a r'' hr' hread

theorem then_ {p : Parse β} {k : β → Parse α} (hp : Keeps P (fun _ => True) p)
    (hk : ∀ b, Keeps P Q (k b)) : Keeps P Q (p >>= k) :=
  hp.bind fun b _ => hk b

/-- Nothing is read, so it does not matter how to go on. -/
theorem never {p : Parse β} {k : β → Parse α} (hp : Keeps P (fun _ => False) p) :
    Keeps P Q (p >>= k) :=
  hp.bind fun _ hb => hb.elim

theorem branch {p : Parse Bool} {yes no : Parse α} (hp : Keeps P (fun _ => True) p)
    (hyes : Keeps P Q yes) (hno : Keeps P Q no) :
    Keeps P Q (p >>= fun b => if b = true then yes else no) := by
  refine hp.then_ fun b => ?_
  cases b
  · exact hno
  · exact hyes

theorem ite {c : Prop} [Decidable c] {yes no : Parse α} (hyes : Keeps P Q yes)
    (hno : Keeps P Q no) : Keeps P Q (if c then yes else no) := by
  split
  · exact hyes
  · exact hno

theorem map {f : β → α} {p : Parse β} (hp : Keeps P R p) (h : ∀ b, R b → Q (f b)) :
    Keeps P Q (f <$> p) := by
  rw [map_eq_pure_bind]
  exact hp.bind fun b hb => pure (h b hb)

theorem forIn {bs : List β} {f : β → PUnit → Parse (ForInStep PUnit)}
    (h : ∀ b x, Keeps P (fun _ => True) (f b x)) :
    Keeps P (fun _ => True) (ForIn.forIn bs PUnit.unit f) := by
  induction bs with
  | nil => exact pure trivial
  | cons b bs ih =>
    rw [List.forIn_cons]
    refine (h b _).then_ fun x => ?_
    cases x
    · exact pure trivial
    · exact ih

/-! ### Tokens -/

theorem refuseAt (place : Source.Position) (message : String) :
    Keeps P Q (Parse.refuseAt place message) := by
  intro r a r' _ hread
  cases hread

theorem peek : Keeps P (fun t => t.token.Lets P) peek := by
  intro r t r' hr hread
  cases hread
  refine ⟨hr, ?_⟩
  cases htokens : r.tokens with
  | nil => trivial
  | cons t ts => exact hr.tokens t (htokens ▸ List.mem_cons_self)

theorem refuse (message : String) : Keeps P Q (Parse.refuse message) := by
  refine peek.bind fun t _ => ?_
  split
  · exact refuseAt _ _
  · exact refuseAt _ _

theorem missing (s why : String) : Keeps P Q (Parse.missing s why) := refuse _

theorem refuseReserved (s : String) (place : Source.Position) :
    Keeps P Q (Parse.refuseReserved s place) :=
  refuseAt _ _

theorem skip : Keeps P (fun _ => True) skip := by
  intro r a r' hr hread
  cases hread
  refine ⟨?_, trivial⟩
  dsimp only
  split
  · next t t' ts htokens =>
    exact ⟨fun u hu => hr.tokens u (htokens ▸ List.mem_cons_of_mem _ hu), hr.library⟩
  · exact hr

theorem atSign (s : String) : Keeps P (fun _ => True) (atSign s) := by
  refine peek.bind fun t _ => ?_
  split <;> exact pure trivial

theorem atWord (s : String) : Keeps P (fun _ => True) (atWord s) := by
  refine peek.bind fun t _ => ?_
  split <;> exact pure trivial

theorem atEnd : Keeps P (fun _ => True) atEnd := by
  refine peek.bind fun t _ => ?_
  split <;> exact pure trivial

theorem accept (s : String) : Keeps P (fun _ => True) (accept s) :=
  (atSign s).branch (skip.then_ fun _ => pure trivial) (pure trivial)

theorem acceptWord (s : String) : Keeps P (fun _ => True) (acceptWord s) :=
  (atWord s).branch (skip.then_ fun _ => pure trivial) (pure trivial)

theorem expect (s why : String) : Keeps P (fun _ => True) (expect s why) :=
  (accept s).branch (pure trivial) (missing s why)

theorem expectWord (s why : String) : Keeps P (fun _ => True) (expectWord s why) :=
  (acceptWord s).branch (pure trivial) (missing s why)

theorem takeName (wanted : String) : Keeps P (fun _ => True) (takeName wanted) := by
  refine peek.bind fun t _ => ?_
  split
  · exact skip.then_ fun _ => pure trivial
  · exact ite (refuse _) (refuse _)
  · exact refuse _

/-! ### Names and functions -/

theorem get : Keeps P (fun r => r.Sound P) get := by
  intro r a r' hr hread
  cases hread
  exact ⟨hr, hr⟩

theorem set {r : Reading} (h : r.Sound P) : Keeps P (fun _ => True) (set r) := by
  intro s a s' _ hread
  cases hread
  exact ⟨h, trivial⟩

theorem modify {f : Reading → Reading} (h : ∀ r, r.Sound P → (f r).Sound P) :
    Keeps P (fun _ => True) (modify f) := by
  intro r a r' hr hread
  cases hread
  exact ⟨h r hr, trivial⟩

theorem atNotIn : Keeps P (fun _ => True) atNotIn := by
  refine get.bind fun r _ => ?_
  split <;> exact pure trivial

theorem declare (name : String) (constant : Bool) :
    Keeps P (fun _ => True) (declare name constant) :=
  modify fun _ hr => hr.names _ _

theorem enclosed {p : Parse α} (hp : Keeps P Q p) : Keeps P Q (enclosed p) := by
  refine get.bind fun r _ => hp.bind fun a ha => then_ (modify ?_) fun _ => pure ha
  exact fun _ hr => hr.names _ _

theorem use (name : String) (place : Source.Position) :
    Keeps P (fun _ => True) (use name place) := by
  refine get.bind fun r hr => ite (then_ (set (hr.names _ _)) fun _ => ?_) ?_ <;>
    exact pure trivial

theorem apart (params : List String) {p : Parse α} (hp : Keeps P Q p) :
    Keeps P (fun s => Q s.1) (apart params p) := by
  refine get.bind fun outer houter => then_ (set (houter.names _ _)) fun _ => ?_
  refine hp.bind fun a ha => get.bind fun inner hinner => ?_
  exact then_ (set (hinner.names _ _)) fun _ => pure ha

theorem addRoutine {f : Routine} (hf : f.CallsOnly P) (place : Source.Position) :
    Keeps P (fun _ => True) (addRoutine f place) := by
  refine get.bind fun r hr => ite ((refuseAt _ _).then_ fun _ => ?_) ?_ <;>
  · refine modify fun r hr => ⟨hr.tokens, fun g hg => ?_⟩
    rcases List.mem_append.mp hg with hg | hg
    · exact hr.library g hg
    · rw [List.mem_singleton.mp hg]
      exact hf

theorem checkTarget (target : Expr) (place : Source.Position) :
    Keeps P (fun _ => True) (checkTarget target place) := by
  unfold Parse.checkTarget
  split
  · refine get.bind fun r _ => ?_
    exact ite (refuseAt _ _) (pure trivial)
  · exact ite (refuseAt _ _) (pure trivial)
  · exact refuseAt _ _
  · exact refuseAt _ _

end Keeps

end Parse

end PackHost.Script
