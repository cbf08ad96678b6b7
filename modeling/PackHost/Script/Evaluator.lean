import PackHost.Script.Parser
import PackHost.Script.Path

/-!
# What scripts mean

The value of an expression, and what statements do. Calls of functions of the script are a
parameter, so all recursion here is on the tree. A block forgets the variables that it declares,
however it ends.
-/

namespace PackHost.Script

open Source (Position)

namespace Env

variable (calls : Calls) (env : Env)

def truth (d : Datum) (place : Option Position) : Eval Bool :=
  match d with
  | .bool b => return b
  | _ => Eval.fail (.mismatch "bool" d.typeName) place

/-- The value of an operator, which must be defined for the values. -/
def operate (sign : String) (r : Option Result) (ds : List Datum) (place : Position) :
    Eval Datum :=
  match r with
  | some (.ok d) => return d
  | some (.error c) => Eval.fail c place
  | none => Eval.fail (.function (Datum.callText sign ds)) place

def pointerTo (d : Datum) (place : Position) : Eval Datum :=
  match d with
  | .text name =>
    match tokens [] name with
    | [⟨.name s, _⟩, ⟨.finish, _⟩] => return .pointer s none []
    | _ => Eval.fail (.function name) place
  | _ => Eval.fail (.mismatch "string" d.typeName) place

def isSpecial (name : String) (count : Nat) : Bool :=
  (name == "Fn" || name == "eval") && count == 1 || name == "call" && 0 < count

def callSpecial (name : String) (args : List Datum) (place : Position) : Eval Datum :=
  match name, args with
  | "Fn", [d] => pointerTo d place
  | "eval", [.text s] => calls.text env s place
  | "eval", [d] => Eval.fail (.mismatch "string" d.typeName) place
  | _, .pointer f r cells :: more => callPointer calls env f r cells more place
  | _, d :: _ => Eval.fail (.mismatch "Fn" d.typeName) place
  | _, [] => return .unit

/-- Calls what has the given name with a variable as the first argument. The call can change the
variable, unless it is constant or shared. -/
def callOnVariable (name : String) (v : Mention) (more : List Datum) (place : Position) :
    Eval Datum := do
  let s ← env.lookUp v
  let r ← callNamed calls env .plain name (s.value :: more) place
  if !s.constant && !s.shared then store v.name r.2
  Eval.settle r.1

def firstMention? : List Expr → Option Mention
  | e :: _ => e.mention?
  | [] => none

/-- Whether a value is the one that an arm of a selection names: one of the same type, or a range
around it. -/
def fits (subject : Datum) : Datum → Bool
  | .range inclusive low high => (contains? (.range inclusive low high) subject).getD false
  | d => sameType d subject && d.same subject

inductive ArmKind where
  | values
  | ranges
  | others
deriving DecidableEq

def armKind : List Expr → ArmKind
  | [] => .others
  | .binary .range .. :: _ => .ranges
  | .binary .rangeInclusive .. :: _ => .ranges
  | _ => .values

inductive Items where
  | listed (ds : List Datum)
  | counted (next stop : Int)

def Items.next? : Items → Option (Datum × Items)
  | .listed [] => none
  | .listed (d :: ds) => some (d, .listed ds)
  | .counted n m => if n < m then some (.int (Int64.ofInt n), .counted (n + 1) m) else none

def itemsOf (d : Datum) (place : Position) : Eval Items :=
  match d with
  | .array ds => return .listed ds
  | .text s => return .listed (s.toList.map .char)
  | .range inclusive low high =>
    return .counted low.toInt (if inclusive then high.toInt + 1 else high.toInt)
  | _ => Eval.fail .iteration place

/-- What a round of a loop says about the loop: its value, if it is over. -/
def roundEnd (p : Eval Datum) : Eval (Option Datum) := do
  match ← Eval.attempt p with
  | .ok _ => return none
  | .error .next => return none
  | .error (.leave d) => return some d
  | .error e => Eval.settle (.error e)

/-- The rounds of a loop over items, where `set` gives the variables of the loop their values. -/
def eachItem (set : Datum → Nat → Eval Unit) (body : Eval Datum) (place : Position)
    (items : Items) : Eval Datum := fun frame =>
  Session.iterate (fun (s : (Items × Nat) × Frame) =>
    match s.1.1.next? with
    | none => .done (.inr (.ok .unit, s.2))
    | some (d, rest) =>
      let round : Eval (Option Datum) := do
        set d s.1.2
        env.tick place
        roundEnd body
      (round s.2).bind fun r =>
        match r with
        | (.ok none, frame) => .done (.inl ((rest, s.1.2 + 1), frame))
        | (.ok (some v), frame) => .done (.inr (.ok v, frame))
        | (.error e, frame) => .done (.inr (.error e, frame))) Eval.boundless ((items, 0), frame)

/-- Goes on after a fault that can be caught. A handler that raises the unit raises the fault
again. -/
def rescued (body : Eval Datum) (handler : Datum → Eval Datum) : Eval Datum := do
  match ← Eval.attempt body with
  | .error (.fault f) =>
    if f.isCatchable then
      Eval.catches
      match ← Eval.attempt (handler (f.caught env.source)) with
      | .ok _ => return .unit
      | .error (.fault ⟨.raised .unit, place, []⟩) =>
        Eval.settle (.error (.fault (f.setOuterPlace place)))
      | .error e => Eval.settle (.error e)
    else Eval.settle (.error (.fault f))
  | r => Eval.settle r

mutual

def expr : Expr → Eval Datum
  | .literal l => return .ofLiteral l
  | .template parts => do
    return .text (String.join ((← exprs parts).map Datum.shown))
  | .variable_ name known place => do
    env.tick place
    return (← env.lookUp ⟨name, known, place⟩).value
  | .array items => do return .array (← exprs items)
  | .map entries => do return .map (Table.ofPairs (← entryValues entries))
  | .call name args place => do
    env.tick place
    if isSpecial name args.length then
      callSpecial calls env name (← exprs args) place
    else
      match firstMention? args with
      | some v => callOnVariable calls env name v (← exprsBehind args) place
      | none =>
        let r ← callNamed calls env .plain name (← exprs args) place
        Eval.settle r.1
  | .unary op e place => do
    env.tick place
    let d ← expr e
    operate op.sign (op.apply d) [d] place
  | .binary op left right place => do
    env.tick place
    let a ← expr left
    let b ← expr right
    operate op.sign (op.apply a b) [a, b] place
  | .and left right leftPlace rightPlace => do
    if ← truth (← expr left) leftPlace then
      return .bool (← truth (← expr right) rightPlace)
    return .bool false
  | .or left right leftPlace rightPlace => do
    if ← truth (← expr left) leftPlace then return .bool true
    return .bool (← truth (← expr right) rightPlace)
  | .otherwise left right => do
    match ← expr left with
    | .unit => expr right
    | d => return d
  | .contained value collection negated place => do
    env.tick place
    let c ← expr collection
    let v ← expr value
    let r ← callNamed calls env .plain "contains" [c, v] place
    let found ← Eval.settle r.1
    if negated then return .bool !(← truth found place)
    return found
  | .chain root links => do
    let steps ← path links
    match root.mention? with
    | some v =>
      env.tick v.place
      followFrom calls env .read v steps
    | none =>
      let r ← follow calls env .read false steps (← expr root)
      Eval.settle r.1
  | .lambda routine captured => do
    return .pointer routine.name (some routine) (← shareAll captured)
  | .block body => Eval.enclosed (stmts body)
  | .cond test place yes no => do
    if ← truth (← expr test) place then Eval.enclosed (stmts yes)
    else Eval.enclosed (stmts no)
  | .select subject all => do
    let d ← expr subject
    match ← choose .values d all with
    | some v => return v
    | none =>
      match ← choose .ranges d all with
      | some v => return v
      | none => return (← choose .others d all).getD .unit

def exprs : List Expr → Eval (List Datum)
  | [] => return []
  | e :: es => do
    let d ← expr e
    return d :: (← exprs es)

def entryValues : List (String × Expr) → Eval (List (String × Datum))
  | [] => return []
  | (name, e) :: es => do
    let d ← expr e
    return (name, d) :: (← entryValues es)

def exprsBehind : List Expr → Eval (List Datum)
  | [] => return []
  | _ :: es => exprs es

def pathOf : Expr → Eval (List Step)
  | .chain _ links => path links
  | _ => return []

def path : List Link → Eval (List Step)
  | [] => return []
  | .property name place :: links => return .property name place :: (← path links)
  | .index e place :: links => do
    let d ← expr e
    return .index d place :: (← path links)
  | .method name args place :: links => do
    let ds ← exprs args
    return .method name ds place :: (← path links)

def choose (kind : ArmKind) (subject : Datum) : List Arm → Eval (Option Datum)
  | [] => return none
  | .mk values guard_ place body :: arms => do
    let fit ← if armKind values = kind then do
        let ds ← exprs values
        pure (ds.isEmpty || ds.any (fits subject))
      else pure false
    let wanted ← if fit then guarded guard_ place else pure false
    if wanted then return some (← Eval.enclosed (stmts body))
    choose kind subject arms

def guarded : Option Expr → Position → Eval Bool
  | none, _ => return true
  | some e, place => do truth (← expr e) place

def optional_ : Option Expr → Eval Datum
  | none => return .unit
  | some e => expr e

def stmt : Stmt → Eval Datum
  | .expr e => expr e
  | .define name constant value => do
    Eval.define name constant (← expr value)
    return .unit
  | .assign target op value place => do
    let d ← expr value
    let steps ← pathOf target
    match target.rootMention? with
    | some v =>
      env.tick v.place
      followFrom calls env (.write op d place) v steps
    | none => return .unit
  | .loop test body place =>
    Eval.rounds do
      env.tick place
      if ← guarded test place then roundEnd (Eval.enclosed (stmts body))
      else return some .unit
  | .loopAfter body test goOn place =>
    Eval.rounds do
      env.tick place
      match ← roundEnd (Eval.enclosed (stmts body)) with
      | some d => return some d
      | none =>
        if (← truth (← expr test) place) == goOn then return none
        return some .unit
  | .each name counter source body place => do
    let items ← itemsOf (← expr source) place
    Eval.enclosed do
      Eval.defineSome counter .unit
      Eval.define name false .unit
      eachItem env (fun d i => do
        storeSome counter (.int (Int64.ofNat i))
        store name d) (Eval.enclosed (stmts body)) place items
  | .leave value => do throw (.leave (← optional_ value))
  | .next => throw .next
  | .give value => do throw (.give (← optional_ value))
  | .raise value place => do Eval.fail (.raised (← optional_ value)) place
  | .rescue body name handler =>
    rescued env (Eval.enclosed (stmts body)) fun d =>
      Eval.enclosed do
        Eval.defineSome name d
        stmts handler

def stmts : List Stmt → Eval Datum
  | [] => return .unit
  | [s] => stmt s
  | s :: ss => do
    let _ ← stmt s
    stmts ss

end

end Env

end PackHost.Script
