import PackHost.Proofs.Language.Law
import PackHost.Proofs.Script.Called
import PackHost.Script.Engine

/-!
# What is called in a script

The functions of the grammar make calls of names and of words that stand for functions only
(`Parse.reads`), so all calls in a script are of words that can be called (`callsOnly_read`). The
functions call each other with a smaller number, so there is one lemma for each of them that takes
all of this for granted of the smaller number.
-/

namespace PackHost.Script

variable {P : String → Prop}

namespace Parse

/-! ## Operators and bodies -/

variable {left right : Expr}

theorem callsOnly_both (hleft : left.CallsOnly P) (hright : right.CallsOnly P)
    (leftPlace rightPlace : Source.Position) :
    (both left right leftPlace rightPlace).CallsOnly P := by
  unfold both
  split
  · exact hright
  · exact hleft
  · exact hleft
  · exact ⟨hleft, hright⟩

theorem callsOnly_either (hleft : left.CallsOnly P) (hright : right.CallsOnly P)
    (leftPlace rightPlace : Source.Position) :
    (either left right leftPlace rightPlace).CallsOnly P := by
  unfold either
  split
  · exact hright
  · exact hleft
  · exact hleft
  · exact ⟨hleft, hright⟩

theorem callsOnly_join (sign : Token) (hleft : left.CallsOnly P) (hright : right.CallsOnly P)
    (place leftPlace rightPlace : Source.Position) :
    (join sign left right place leftPlace rightPlace).CallsOnly P := by
  unfold join
  split
  · exact callsOnly_both hleft hright _ _
  · exact callsOnly_either hleft hright _ _
  · exact ⟨hleft, hright⟩
  · exact ⟨hleft, hright⟩
  · split
    · exact ⟨hleft, hright⟩
    · exact hleft
  · exact hleft

theorem callsOnly_negate {e : Expr} (h : e.CallsOnly P) (place : Source.Position) :
    (negate place e).CallsOnly P := by
  unfold negate
  split
  · split <;> trivial
  · trivial
  · exact h

theorem callsOnly_affirm {e : Expr} (h : e.CallsOnly P) (place : Source.Position) :
    (affirm place e).CallsOnly P := by
  unfold affirm
  split
  · trivial
  · trivial
  · exact h

theorem allCallOnly_bodyOf {s : Option Stmt} (h : Stmt.AllCallOnly P s.toList) :
    Stmt.AllCallOnly P (bodyOf s) := by
  unfold bodyOf
  split
  · exact h.1
  · exact h
  · trivial

/-! ## The grammar -/

/-- What the functions of the grammar read makes calls of names with the property only. -/
structure Reads (P : String → Prop) (n : Nat) : Prop where
  expr : ∀ m, Keeps P (Expr.CallsOnly P) (expr n m)
  operators : ∀ m least left place, left.CallsOnly P →
    Keeps P (Expr.CallsOnly P) (operators n m least left place)
  unary : ∀ m, Keeps P (Expr.CallsOnly P) (unary n m)
  postfixes : ∀ m, Keeps P (Link.AllCallOnly P) (postfixes n m)
  arguments : ∀ m name, Keeps P (Expr.AllCallOnly P) (arguments n m name)
  moreArguments : ∀ m name, Keeps P (Expr.AllCallOnly P) (moreArguments n m name)
  items : ∀ m, Keeps P (Expr.AllCallOnly P) (items n m)
  entries : ∀ m names, Keeps P (Expr.EntriesCallOnly P) (entries n m names)
  chunks : ∀ m, Keeps P (Expr.AllCallOnly P) (chunks n m)
  primary : ∀ m, Keeps P (Expr.CallsOnly P) (primary n m)
  lambdaParams : Keeps P (fun _ => True) (lambdaParams n)
  lambda : ∀ params, Keeps P (Expr.CallsOnly P) (lambda n params)
  conditional : ∀ m, Keeps P (Expr.CallsOnly P) (conditional n m)
  selection : ∀ m, Keeps P (Expr.CallsOnly P) (selection n m)
  arms : ∀ m done, Keeps P (Arm.AllCallOnly P) (arms n m done)
  armValues : ∀ m, Keeps P (Expr.AllCallOnly P) (armValues n m)
  block : ∀ m, Keeps P (Stmt.AllCallOnly P) (block n m)
  statements : ∀ m, Keeps P (Stmt.AllCallOnly P) (statements n m)
  script : Keeps P (Stmt.AllCallOnly P) (script n)
  statement : ∀ m, Keeps P (fun s => Stmt.AllCallOnly P s.1.toList) (statement n m)
  optionalExpr : ∀ m, Keeps P (Expr.SomeCallsOnly P) (optionalExpr n m)
  definition : ∀ m constant, Keeps P (Stmt.CallsOnly P) (definition n m constant)
  iteration : ∀ m place, Keeps P (Stmt.CallsOnly P) (iteration n m place)
  attempt : ∀ m, Keeps P (Stmt.CallsOnly P) (attempt n m)
  routine : Keeps P (fun _ => True) (routine n)
  routineParams : ∀ function before, Keeps P (fun _ => True) (routineParams n function before)

namespace Keeps

variable {n : Nat} (h : Reads P n) (m : Mode)
include h

/-! ### Expressions -/

theorem expr_succ : Keeps P (Expr.CallsOnly P) (Parse.expr (n + 1) m) := by
  rw [Parse.expr]
  exact peek.bind fun t _ => (h.unary m).bind fun left hleft => h.operators m 0 left _ hleft

theorem operators_succ (least : Nat) (left : Expr) (leftPlace : Source.Position)
    (hleft : left.CallsOnly P) :
    Keeps P (Expr.CallsOnly P) (Parse.operators (n + 1) m least left leftPlace) := by
  rw [Parse.operators]
  refine peek.bind fun sign _ => atNotIn.then_ fun negated => ?_
  extract_lets strength behind goOn
  have hbehind : ∀ x, Keeps P (Expr.CallsOnly P) (behind x) := by
    intro x
    refine peek.bind fun t _ => (h.unary m).bind fun right hright => ?_
    refine peek.bind fun next _ => atNotIn.then_ fun negatedNext => ?_
    extract_lets following last
    have hlast : ∀ right, right.CallsOnly P → Keeps P (Expr.CallsOnly P) (last right) := by
      intro right hright
      refine h.operators m least _ leftPlace ?_
      split
      · exact ⟨hleft, hright⟩
      · exact callsOnly_join _ hleft hright _ _ _
    exact ite ((h.operators m strength right _ hright).bind hlast) ((pure hright).bind hlast)
  have hgoOn : ∀ x, Keeps P (Expr.CallsOnly P) (goOn x) := fun x =>
    ite (pure hleft) (skip.then_ fun _ => ite (skip.then_ hbehind) (hbehind ()))
  split
  · exact ite ((refuse _).then_ hgoOn) (hgoOn ())
  · exact hgoOn ()

theorem unary_succ : Keeps P (Expr.CallsOnly P) (Parse.unary (n + 1) m) := by
  rw [Parse.unary]
  refine peek.bind fun t _ => ?_
  split
  · exact skip.then_ fun _ => (h.unary m).bind fun e he => pure (callsOnly_negate he _)
  · exact skip.then_ fun _ => (h.unary m).bind fun e he => pure (callsOnly_affirm he _)
  · exact skip.then_ fun _ => (h.unary m).bind fun e he => pure he
  · refine (h.primary m).bind fun root hroot => (h.postfixes m).bind fun links hlinks => pure ?_
    split
    · exact hroot
    · exact ⟨hroot, hlinks⟩

theorem postfixes_succ : Keeps P (Link.AllCallOnly P) (Parse.postfixes (n + 1) m) := by
  rw [Parse.postfixes]
  refine (accept _).branch ?_ ((accept _).branch ?_ (pure trivial))
  · refine peek.bind fun t _ => (h.expr m).bind fun e he => (expect _ _).then_ fun _ => ?_
    exact (h.postfixes m).bind fun links hlinks => pure ⟨he, hlinks⟩
  · refine peek.bind fun t ht => ?_
    extract_lets goOn
    have hgoOn : ∀ name, P name → Keeps P (Link.AllCallOnly P) (goOn name) := by
      intro name hname
      refine skip.then_ fun _ => (accept _).branch ?_ ?_
      · exact (h.arguments m name).bind fun args hargs =>
          (h.postfixes m).bind fun links hlinks => pure ⟨⟨hname, hargs⟩, hlinks⟩
      · exact (h.postfixes m).bind fun links hlinks => pure ⟨trivial, hlinks⟩
    split
    · next s hs =>
      rw [hs] at ht
      exact bind (pure ht) hgoOn
    · next s hs =>
      rw [hs] at ht
      split
      · next hword =>
        refine bind (pure (ht ?_)) hgoOn
        rw [isFunctionWord, hword, Bool.or_true]
      · exact ite (never (refuse _)) (never (refuse _))
    · exact never (refuse _)

theorem arguments_succ (name : String) :
    Keeps P (Expr.AllCallOnly P) (Parse.arguments (n + 1) m name) := by
  rw [Parse.arguments]
  exact atEnd.then_ fun _ => ite (never (missing _ _)) (h.moreArguments m name)

theorem moreArguments_succ (name : String) :
    Keeps P (Expr.AllCallOnly P) (Parse.moreArguments (n + 1) m name) := by
  rw [Parse.moreArguments]
  refine (accept _).branch (pure trivial) ((h.expr m).bind fun e he => ?_)
  refine (accept _).branch (pure ⟨he, trivial⟩) ((accept _).branch ?_ ?_)
  · exact (h.moreArguments m name).bind fun es hes => pure ⟨he, hes⟩
  · exact atEnd.then_ fun _ => ite (never (missing _ _)) (missing _ _)

theorem items_succ : Keeps P (Expr.AllCallOnly P) (Parse.items (n + 1) m) := by
  rw [Parse.items]
  refine (accept _).branch (pure trivial) (atEnd.then_ fun _ => ?_)
  refine ite (never (missing _ _)) ((h.expr m).bind fun e he => ?_)
  refine (accept _).branch (pure ⟨he, trivial⟩) ((accept _).branch ?_ ?_)
  · exact (h.items m).bind fun es hes => pure ⟨he, hes⟩
  · exact atEnd.then_ fun _ => ite (never (missing _ _)) (missing _ _)

theorem entries_succ (names : List String) :
    Keeps P (Expr.EntriesCallOnly P) (Parse.entries (n + 1) m names) := by
  rw [Parse.entries]
  refine (accept _).branch (pure trivial) (peek.bind fun t _ => ?_)
  extract_lets goOn
  have hgoOn : ∀ name, Keeps P (Expr.EntriesCallOnly P) (goOn name) := by
    intro name
    refine ite (never (refuse _)) (skip.then_ fun _ => (expect _ _).then_ fun _ => ?_)
    refine (h.expr m).bind fun e he => (accept _).branch (pure ⟨he, trivial⟩) ?_
    refine (accept _).branch ((h.entries m _).bind fun es hes => pure ⟨he, hes⟩) ?_
    refine peek.bind fun t _ => ?_
    split <;> exact missing _ _
  split
  · exact then_ (pure trivial) hgoOn
  · exact then_ (pure trivial) hgoOn
  · exact peek.bind fun t _ => never (refuseReserved _ _)
  · exact never (missing _ _)
  · exact ite (never (missing _ _)) (never (refuse _))

theorem chunks_succ : Keeps P (Expr.AllCallOnly P) (Parse.chunks (n + 1) m) := by
  rw [Parse.chunks]
  refine (enclosed (h.statements m.inside)).bind fun body hbody => ?_
  extract_lets block
  have hblock : block.CallsOnly P := hbody.busyWithLast
  refine peek.bind fun t _ => ?_
  split
  · exact skip.then_ fun _ => pure ⟨hblock, trivial, trivial⟩
  · exact skip.then_ fun _ => (h.chunks m).bind fun es hes => pure ⟨hblock, trivial, hes⟩
  · exact refuse _

theorem primary_succ : Keeps P (Expr.CallsOnly P) (Parse.primary (n + 1) m) := by
  rw [Parse.primary]
  refine peek.bind fun t ht => ?_
  extract_lets literal
  have hliteral : ∀ l, Keeps P (Expr.CallsOnly P) (literal l) :=
    fun l => skip.then_ fun _ => pure trivial
  split
  · exact hliteral _
  · exact hliteral _
  · exact hliteral _
  · exact hliteral _
  · exact hliteral _
  · exact hliteral _
  · exact skip.then_ fun _ => (h.chunks m).bind fun es hes => pure ⟨trivial, hes⟩
  · next s hs =>
    rw [hs] at ht
    refine skip.then_ fun _ => (accept _).branch ?_ ?_
    · exact (h.arguments m s).bind fun args hargs => pure ⟨ht, hargs⟩
    · exact (use _ _).then_ fun _ => pure trivial
  · next s hs =>
    rw [hs] at ht
    refine skip.then_ fun _ => ?_
    extract_lets goOn
    split
    · next hword =>
      refine (accept _).branch ?_ (refuseReserved _ _)
      exact (h.arguments m s).bind fun args hargs => pure ⟨ht hword, hargs⟩
    · exact refuseReserved _ _
  · refine skip.then_ fun _ => (accept _).branch (pure trivial) ?_
    exact (h.expr m).bind fun e he => (expect _ _).then_ fun _ => pure he
  · exact skip.then_ fun _ => (h.items m).bind fun es hes => pure hes
  · exact skip.then_ fun _ => (h.entries m []).bind fun es hes => pure hes
  · exact (h.block m.inside).bind fun body hbody => pure hbody
  · exact skip.then_ fun _ => h.lambdaParams.then_ fun params => h.lambda params
  · exact skip.then_ fun _ => h.lambda []
  · exact h.conditional m
  · exact h.selection m
  · exact (h.statement m.inside).bind fun s hs => pure hs
  · exact (h.statement m.inside).bind fun s hs => pure hs
  · exact (h.statement m.inside).bind fun s hs => pure hs
  · exact (h.statement m.inside).bind fun s hs => pure hs
  · exact refuse _
  · exact refuse _

/-! ### Functions without a name, choices and blocks -/

omit m in
theorem lambdaParams_succ : Keeps P (fun _ => True) (Parse.lambdaParams (n + 1)) := by
  rw [Parse.lambdaParams]
  refine (accept _).branch (pure trivial) ((takeName _).then_ fun s => ?_)
  refine (accept _).branch (pure trivial) ((expect _ _).then_ fun _ => ?_)
  exact h.lambdaParams.then_ fun _ => pure trivial

omit m in
theorem lambda_succ (params : List String) :
    Keeps P (Expr.CallsOnly P) (Parse.lambda (n + 1) params) := by
  rw [Parse.lambda]
  refine (apart params (h.statement .function)).bind fun s hs => ?_
  refine (forIn fun v x => (use _ _).then_ fun _ => pure trivial).then_ fun _ => pure ?_
  exact (allCallOnly_bodyOf hs).busyWithLast

theorem conditional_succ : Keeps P (Expr.CallsOnly P) (Parse.conditional (n + 1) m) := by
  rw [Parse.conditional]
  refine skip.then_ fun _ => peek.bind fun t _ => (h.expr m).bind fun test htest => ?_
  refine (h.block m.inside).bind fun yes hyes => (acceptWord _).branch ((atWord _).branch ?_ ?_) ?_
  · exact (h.conditional m).bind fun e he => pure ⟨htest, hyes, he, trivial⟩
  · exact (h.block m.inside).bind fun no hno => pure ⟨htest, hyes, hno⟩
  · exact pure ⟨htest, hyes, trivial⟩

theorem selection_succ : Keeps P (Expr.CallsOnly P) (Parse.selection (n + 1) m) := by
  rw [Parse.selection]
  refine skip.then_ fun _ => (h.expr m).bind fun subject hsubject => (expect _ _).then_ fun _ => ?_
  exact (h.arms m.inside false).bind fun arms harms => pure ⟨hsubject, harms⟩

theorem arms_succ (done : Bool) : Keeps P (Arm.AllCallOnly P) (Parse.arms (n + 1) m done) := by
  rw [Parse.arms]
  refine (accept _).branch (pure trivial) (atEnd.then_ fun _ => ite (never (missing _ _)) ?_)
  refine ite (never (refuse _)) ((accept _).then_ fun last => (atWord _).then_ fun _ => ?_)
  refine ite (never (refuse _)) ?_
  extract_lets refused withValues
  have hwithValues : ∀ values, Expr.AllCallOnly P values →
      Keeps P (Arm.AllCallOnly P) (withValues values) := by
    intro values hvalues
    refine peek.bind fun t _ => (acceptWord _).then_ fun guarded => ?_
    extract_lets withGuard
    have hwithGuard : ∀ guard_, Expr.SomeCallsOnly P guard_ →
        Keeps P (Arm.AllCallOnly P) (withGuard guard_) := by
      intro guard_ hguard
      refine (expect _ _).then_ fun _ => (enclosed (h.statement m)).bind fun s hs => ?_
      have harm : (Arm.mk values guard_ t.place (busyWithLast (bodyOf s.1))).CallsOnly P :=
        ⟨hvalues, hguard, (allCallOnly_bodyOf hs).busyWithLast⟩
      have hmore : Keeps P (Arm.AllCallOnly P)
          (Parse.arms n m last >>= fun arms =>
            Pure.pure (Arm.mk values guard_ t.place (busyWithLast (bodyOf s.1)) :: arms)) :=
        (h.arms m last).bind fun arms harms => pure ⟨harm, harms⟩
      refine (accept _).branch hmore ((accept _).branch (pure ⟨harm, trivial⟩) (ite hmore ?_))
      exact atEnd.then_ fun _ => ite (never (missing _ _)) (missing _ _)
    have hguard : Keeps P (Expr.SomeCallsOnly P) (some <$> Parse.expr n m) :=
      (h.expr m).map fun e he => he
    exact ite (hguard.bind hwithGuard) (bind (pure trivial) hwithGuard)
  exact ite (bind (pure trivial) hwithValues) ((h.armValues m).bind hwithValues)

theorem armValues_succ : Keeps P (Expr.AllCallOnly P) (Parse.armValues (n + 1) m) := by
  rw [Parse.armValues]
  refine peek.bind fun t _ => (h.unary m).bind fun first hfirst => ?_
  refine (h.operators m 31 first _ hfirst).bind fun e he => ite (never (refuseAt _ _)) ?_
  refine (accept _).branch ?_ (pure ⟨he, trivial⟩)
  exact (h.armValues m).bind fun es hes => pure ⟨he, hes⟩

theorem block_succ : Keeps P (Stmt.AllCallOnly P) (Parse.block (n + 1) m) := by
  rw [Parse.block]
  refine (expect _ _).then_ fun _ => (enclosed (h.statements m)).bind fun body hbody => ?_
  exact pure hbody.busyWithLast

/-! ### Statements -/

theorem statements_succ : Keeps P (Stmt.AllCallOnly P) (Parse.statements (n + 1) m) := by
  rw [Parse.statements]
  refine (accept _).branch (pure trivial) (atEnd.then_ fun _ => ite (never (missing _ _)) ?_)
  refine (h.statement m).bind fun s hs => ?_
  have hmore : Keeps P (Stmt.AllCallOnly P)
      (Parse.statements n m >>= fun ss => Pure.pure (s.1.toList ++ ss)) :=
    (h.statements m).bind fun ss hss => pure (hs.append hss)
  refine ite ((accept _).branch (pure hs) (ite ?_ hmore)) hmore
  exact (expect _ _).then_ fun _ => hmore

omit m in
theorem script_succ : Keeps P (Stmt.AllCallOnly P) (Parse.script (n + 1)) := by
  rw [Parse.script]
  refine atEnd.branch (pure trivial) ((h.statement _).bind fun s hs => ?_)
  have hmore : Keeps P (Stmt.AllCallOnly P)
      (Parse.script n >>= fun ss => Pure.pure (s.1.toList ++ ss)) :=
    h.script.bind fun ss hss => pure (hs.append hss)
  refine ite (atEnd.branch (pure hs) (ite ?_ hmore)) hmore
  exact (expect _ _).then_ fun _ => hmore

theorem statement_succ :
    Keeps P (fun s => Stmt.AllCallOnly P s.1.toList) (Parse.statement (n + 1) m) := by
  rw [Parse.statement]
  refine peek.bind fun t _ => ?_
  extract_lets inner
  have hbody := h.block .looping
  have hvalue := h.optionalExpr inner
  split
  · exact skip.then_ fun _ => pure trivial
  · exact (h.block inner).bind fun body hbody => pure ⟨hbody, trivial⟩
  · exact (h.conditional inner).bind fun e he => pure ⟨he, trivial⟩
  · exact (h.selection inner).bind fun e he => pure ⟨he, trivial⟩
  · exact skip.then_ fun _ => (h.definition inner false).bind fun s hs => pure ⟨hs, trivial⟩
  · exact skip.then_ fun _ => (h.definition inner true).bind fun s hs => pure ⟨hs, trivial⟩
  · exact skip.then_ fun _ => (h.expr inner).bind fun test htest =>
      hbody.bind fun body hbody => pure ⟨⟨htest, hbody.busy⟩, trivial⟩
  · exact skip.then_ fun _ => hbody.bind fun body hbody => pure ⟨⟨trivial, hbody.busy⟩, trivial⟩
  · refine skip.then_ fun _ => hbody.bind fun body hbody => (acceptWord _).then_ fun until_ => ?_
    have htest : Keeps P (fun s => Stmt.AllCallOnly P s.1.toList) (Parse.expr n inner >>= fun test =>
        Pure.pure (some (Stmt.loopAfter (busy body) test (!until_) t.place), false)) :=
      (h.expr inner).bind fun test htest => pure ⟨⟨hbody.busy, htest⟩, trivial⟩
    exact ite ((expectWord _ _).then_ fun _ => htest) htest
  · exact skip.then_ fun _ => (h.iteration inner _).bind fun s hs => pure ⟨hs, trivial⟩
  · refine ite (never (refuse _)) (skip.then_ fun _ => ?_)
    exact hvalue.bind fun value hvalue => pure ⟨hvalue, trivial⟩
  · exact ite (never (refuse _)) (skip.then_ fun _ => pure ⟨trivial, trivial⟩)
  · exact skip.then_ fun _ => hvalue.bind fun value hvalue => pure ⟨hvalue, trivial⟩
  · exact skip.then_ fun _ => hvalue.bind fun value hvalue => pure ⟨hvalue, trivial⟩
  · exact skip.then_ fun _ => (h.attempt inner).bind fun s hs => pure ⟨hs, trivial⟩
  · exact ite (never (refuse _)) (skip.then_ fun _ => h.routine.then_ fun _ => pure trivial)
  · refine skip.then_ fun _ => (expectWord _ _).then_ fun _ => ?_
    exact h.routine.then_ fun _ => pure trivial
  · refine (h.expr inner).bind fun e he => peek.bind fun sign _ => ?_
    split
    · exact pure ⟨he, trivial⟩
    · refine skip.then_ fun _ => (h.expr inner).bind fun value hvalue => ?_
      exact (checkTarget _ _).then_ fun _ => pure ⟨⟨he, hvalue⟩, trivial⟩

theorem optionalExpr_succ : Keeps P (Expr.SomeCallsOnly P) (Parse.optionalExpr (n + 1) m) := by
  rw [Parse.optionalExpr]
  refine atEnd.then_ fun _ => (atSign _).then_ fun _ => (atSign _).then_ fun _ => ?_
  exact ite (pure trivial) ((h.expr m).bind fun e he => pure he)

theorem definition_succ (constant : Bool) :
    Keeps P (Stmt.CallsOnly P) (Parse.definition (n + 1) m constant) := by
  rw [Parse.definition]
  refine (takeName _).then_ fun name => ?_
  have hdeclared : ∀ value : Expr, value.CallsOnly P → Keeps P (Stmt.CallsOnly P)
      (Parse.declare name constant >>= fun _ => Pure.pure (Stmt.define name constant value)) :=
    fun value hvalue => (declare _ _).then_ fun _ => pure hvalue
  exact (accept _).branch ((h.expr m).bind hdeclared) (bind (pure trivial) hdeclared)

theorem iteration_succ (place : Source.Position) :
    Keeps P (Stmt.CallsOnly P) (Parse.iteration (n + 1) m place) := by
  rw [Parse.iteration]
  refine (accept _).then_ fun _ => ?_
  extract_lets goOn
  have hgoOn : ∀ x, Keeps P (Stmt.CallsOnly P) (goOn x) := by
    intro x
    refine (expectWord _ _).then_ fun _ => (h.expr m).bind fun source hsource => enclosed ?_
    refine (forIn fun c _ => (declare _ _).then_ fun _ => pure trivial).then_ fun _ => ?_
    refine (declare _ _).then_ fun _ => (h.block .looping).bind fun body hbody => ?_
    exact pure ⟨hsource, hbody.busy⟩
  refine ite ?_ ((takeName _).then_ fun _ => then_ (pure trivial) hgoOn)
  refine (takeName _).then_ fun name => (expect _ _).then_ fun _ => peek.bind fun t _ => ?_
  refine (takeName _).then_ fun counter => ite (never (refuseAt _ _)) ?_
  exact (expect _ _).then_ fun _ => then_ (pure trivial) hgoOn

theorem attempt_succ : Keeps P (Stmt.CallsOnly P) (Parse.attempt (n + 1) m) := by
  rw [Parse.attempt]
  refine (h.block m).bind fun body hbody => (expectWord _ _).then_ fun _ => ?_
  refine (accept _).then_ fun _ => ?_
  extract_lets goOn
  have hgoOn : ∀ name, Keeps P (Stmt.CallsOnly P) (goOn name) := by
    intro name
    refine enclosed ((forIn fun c _ => (declare _ _).then_ fun _ => pure trivial).then_ fun _ => ?_)
    exact (h.block m).bind fun handler hhandler => pure ⟨hbody, hhandler⟩
  refine ite ?_ (then_ (pure trivial) hgoOn)
  exact (takeName _).then_ fun _ => (expect _ _).then_ fun _ => then_ (pure trivial) hgoOn

omit m in
theorem routine_succ : Keeps P (fun _ => True) (Parse.routine (n + 1)) := by
  rw [Parse.routine]
  refine peek.bind fun t _ => (takeName _).then_ fun name => (expect _ _).then_ fun _ => ?_
  refine (h.routineParams name []).then_ fun params => ?_
  exact (apart params (h.block .function)).bind fun s hs =>
    addRoutine (f := .mk name params s.1) hs _

omit m in
theorem routineParams_succ (function : String) (before : List String) :
    Keeps P (fun _ => True) (Parse.routineParams (n + 1) function before) := by
  rw [Parse.routineParams]
  refine (accept _).branch (pure trivial) (peek.bind fun t _ => (takeName _).then_ fun s => ?_)
  refine ite (never (refuseAt _ _)) ((accept _).branch (pure trivial) ?_)
  refine (expect _ _).then_ fun _ => ?_
  exact (h.routineParams function _).then_ fun _ => pure trivial

end Keeps

/-- **All that the grammar reads makes calls of names with the property only**, as long as the
tokens let nothing else be called. -/
theorem reads (n : Nat) : Reads P n := by
  induction n with
  | zero => constructor <;> intros <;> exact .refuse _
  | succ n ih =>
    exact
      { expr := .expr_succ ih
        operators := .operators_succ ih
        unary := .unary_succ ih
        postfixes := .postfixes_succ ih
        arguments := .arguments_succ ih
        moreArguments := .moreArguments_succ ih
        items := .items_succ ih
        entries := .entries_succ ih
        chunks := .chunks_succ ih
        primary := .primary_succ ih
        lambdaParams := .lambdaParams_succ ih
        lambda := .lambda_succ ih
        conditional := .conditional_succ ih
        selection := .selection_succ ih
        arms := .arms_succ ih
        armValues := .armValues_succ ih
        block := .block_succ ih
        statements := .statements_succ ih
        script := .script_succ ih
        statement := .statement_succ ih
        optionalExpr := .optionalExpr_succ ih
        definition := .definition_succ ih
        iteration := .iteration_succ ih
        attempt := .attempt_succ ih
        routine := .routine_succ ih
        routineParams := .routineParams_succ ih }

end Parse

/-- **All calls in a script are of words that can be called.** -/
theorem callsOnly_read {off : List String} (hP : ∀ s, Callable off s → P s) {text : String}
    {t : Tree} (h : Tree.read off text = .ok t) : t.CallsOnly P := by
  unfold Tree.read at h
  simp only at h
  split at h
  · cases h
  · next body r hread =>
    cases h
    have hsound : Reading.Sound P ⟨tokens off text, [], [], []⟩ :=
      ⟨fun t ht => (callable_tokens off text t ht).imp hP, List.forall_mem_nil _⟩
    obtain ⟨hr, hbody⟩ := (Parse.reads _).script _ body r hsound hread
    exact ⟨hr.library, hbody.busyWithLast⟩

def Tree.Calls (t : Tree) (name : String) : Prop := ¬ t.CallsOnly fun s => s ≠ name

/-- **Words of the language that are off are not called by a text that compiles.** -/
theorem language_disables : language.Disables Language.Context.keptWords Tree.Calls := by
  intro off text t name hread hoff hkept hcalls
  have hread' : Tree.read off text = .ok t := by
    change (Tree.read off text).mapError _ = .ok t at hread
    cases h : Tree.read off text with
    | error f =>
      rw [h] at hread
      cases hread
    | ok t' =>
      rw [h] at hread
      cases hread
      rfl
  have hall : ∀ word ∈ Language.Context.keptWords, ¬ IsOrdinary word := by decide
  refine hcalls (callsOnly_read (fun s hs => ?_) hread')
  rintro rfl
  exact hs.elim (hall s hkept) fun hon => hon hoff

end PackHost.Script
