import PackHost.Script.Builtin
import PackHost.Script.Eval

/-!
# Calls

A name with arguments is a call of a function of the script. If there is none, the host says whether
the call is one of a registered function, which it answers, or of the language. The first argument
of a call may be changed by it: functions of the language change it where that is their job, and
functions of the host take it away, so that the unit is left. How functions of the script are run is
a parameter here (`Calls`).
-/

namespace PackHost.Script

open Source (Position)

/-- How calls are made that need an evaluation of their own. -/
structure Calls where
  routine : Env → Routine → List Slot → Option Position → Eval Datum
  named : Env → String → List Datum → Option Position → Eval Datum
  text : Env → String → Option Position → Eval Datum

abbrev Reply := Except Exit Datum × Datum

inductive Style where
  | plain
  | method (constant : Bool)
deriving DecidableEq, Repr

namespace Style

def isFixed : Style → Bool
  | .plain => false
  | .method constant => constant

end Style

namespace Env

variable (calls : Calls) (env : Env)

def deeper : Env := { env with level := env.level + 1 }

/-! ## Function pointers -/

def callPointer (name : String) (routine : Option Routine) (cells : List Nat) (args : List Datum)
    (place : Option Position) : Eval Datum := do
  let byName : Eval Datum := do
    let held ← cells.mapM fun cell => do return (← readCell cell).value
    calls.named env name (held ++ args) place
  match routine with
  | some r =>
    if r.params.length = cells.length + args.length then
      calls.routine env r (cells.map .shared ++ args.map .own) place
    else byName
  | none => byName

def isMissing : Except Exit Datum → Bool
  | .error (.fault ⟨.function _, _, []⟩) => true
  | _ => false

/-- Calls a function through a pointer for an item at an index; the item is the last argument. A
function with a parameter more takes the index, too, and one with a parameter less goes without the
item. -/
def callForItem (name : String) (routine : Option Routine) (cells : List Nat) (args : List Datum)
    (index : Nat) (place : Option Position) : Eval Datum :=
  let call (ds : List Datum) : Eval Datum := callPointer calls env name routine cells ds place
  let takes (ds : List Datum) : Bool :=
    match routine with
    | some r => r.params.length = cells.length + ds.length
    | none => (env.library.find? name (cells.length + ds.length)).isSome
  let withIndex := args ++ [.int (Int64.ofNat index)]
  if takes args.dropLast then call args.dropLast
  else if takes args then call args
  else if takes withIndex || routine.isSome then call withIndex
  else do
    let r ← Eval.attempt (call args)
    if isMissing r then do
      Eval.catches
      call withIndex
    else Eval.settle r

/-! ## Functions of the language that call others -/

/-- The values of a function for items, the first of which has the given index. -/
def mapItems (f : Datum → Nat → Eval Datum) (index : Nat) :
    List Datum → Eval (List Datum)
  | [] => return []
  | d :: ds => do
    let v ← f d index
    return v :: (← mapItems f (index + 1) ds)

def filterItems (f : Datum → Nat → Eval Datum) (index : Nat) :
    List Datum → Eval (List Datum)
  | [] => return []
  | d :: ds => do
    let kept := match ← f d index with
      | .bool b => b
      | _ => false
    let rest ← filterItems f (index + 1) ds
    return if kept then d :: rest else rest

/-- What a function makes of a value and items, one after another. -/
def reduceItems (f : Datum → Datum → Nat → Eval Datum) (index : Nat) (d : Datum) :
    List Datum → Eval Datum
  | [] => return d
  | e :: es => do reduceItems f (index + 1) (← f d e index) es

/-- Puts an item into its place among items in descending order. -/
def insertItem (isLess : Datum → Datum → Eval Bool) (d : Datum) :
    List Datum → Eval (List Datum)
  | [] => return [d]
  | e :: es => do
    if ← isLess d e then return e :: (← insertItem isLess d es)
    return d :: e :: es

/-- Items in descending order, the given ones before the others. -/
def sortItems (isLess : Datum → Datum → Eval Bool) (done : List Datum) :
    List Datum → Eval (List Datum)
  | [] => return done
  | d :: ds => do sortItems isLess (← insertItem isLess d done) ds

/-- Whether a function that compares puts one value before another. A fault makes them equal. -/
def isBefore (f : List Datum → Eval Datum) (a b : Datum) : Eval Bool := do
  match ← Eval.attempt (f [a, b]) with
  | .ok (.int n) => return n < 0
  | .error (.crash m) => Eval.settle (.error (.crash m))
  | .error (.fault _) => do
    Eval.catches
    return false
  | _ => return false

/-- Ends as an evaluation does, and leaves the first argument as it is. -/
def keeping (first : Datum) (p : Eval Datum) : Eval Reply := do
  return (← Eval.attempt p, first)

/-- What a function of the language does that calls other functions. -/
def higher? (style : Style) (name : String) (args : List Datum) (place : Option Position) :
    Option (Eval Reply) :=
  let inner := env.deeper
  match name, args with
  | "map", [.array items, .pointer f r cells] =>
    some (keeping (.array items) (do
      return .array (← mapItems
        (fun d i => callForItem calls inner f r cells [d] i place) 0 items)))
  | "filter", [.array items, .pointer f r cells] =>
    some (keeping (.array items) (do
      return .array (← filterItems
        (fun d i => callForItem calls inner f r cells [d] i place) 0 items)))
  | "reduce", [.array items, .pointer f r cells] =>
    some (keeping (.array items) (reduceItems
      (fun d e i => callForItem calls inner f r cells [d, e] i place) 0 .unit items))
  | "reduce", [.array items, .pointer f r cells, start] =>
    some (keeping (.array items) (reduceItems
      (fun d e i => callForItem calls inner f r cells [d, e] i place) 0 start items))
  | "sort", [.array items, .pointer f r cells] =>
    some (if style.isFixed then return (.error (.fault (.new (.method name) place)), .array items)
      else do
        let compare (ds : List Datum) : Eval Datum :=
          callPointer calls inner f r cells ds place
        match ← Eval.attempt (sortItems (isBefore compare) [] items) with
        | .ok ds => return (.ok .unit, .array ds.reverse)
        | .error e => return (.error e, .array items))
  | _, _ => none

/-! ## Functions of the language and of the host -/

def builtin? (style : Style) (name : String) (args : List Datum) (place : Option Position) :
    Option (Eval Reply) :=
  let first := args.headD .unit
  let refusal (cause : Cause) : Reply := (.error (.fault (.new cause none)), first)
  match higher? calls env style name args place with
  | some p => some p
  | none =>
    (Builtin.answer? name args).map fun a => return match a with
      | .value (.ok d) => (.ok d, first)
      | .value (.error c) => refusal c
      | .change r =>
        if style.isFixed then refusal (.method name)
        else
          match r with
          | .ok d => (.ok .unit, d)
          | .error c => refusal c
      | .quit => (.error (.quit none), first)

def endOf : PackHost.Answer Datum → Except Exit Datum
  | .value d => .ok d
  | .raised message => .error (.fault (.new (.raised (.text message)) none))
  | .system function message => .error (.fault (.new (.host function message) none))
  | .crashed message => .error (.crash message)

def replyTo (style : Style) (name : String) (args : List Datum) (place : Option Position) :
    Response Datum → Eval Reply
  | .answered a taken => return (endOf a, if taken then .unit else args.headD .unit)
  | .own =>
    match builtin? calls env style name args place with
    | some p => p
    | none => refuse (.function (Datum.callText name args))
  | .fixed => refuse (.method name)
  | .missing => refuse (.function (Datum.callText name args))
where
  refuse (cause : Cause) : Eval Reply :=
    return (.error (.fault (.new cause none)), args.headD .unit)

/-- Calls what has the given name and is no function of the script. -/
def callNative (style : Style) (name : String) (args : List Datum) (place : Option Position) :
    Eval Reply := do
  let response ← Eval.ask (.call name style.isFixed args .done)
  match ← replyTo calls env style name args place response with
  | (.error e, d) => return (.error (e.fillPlace place), d)
  | r => return r

def callNamed (style : Style) (name : String) (args : List Datum) (place : Option Position) :
    Eval Reply :=
  let first := args.headD .unit
  let given := if style = .plain then args else args.drop 1
  if name == "type_of" && args.length == 1 then return (.ok (.text first.typeName), first)
  else
    match env.library.find? name given.length with
    | some r => keeping first (calls.routine env r (given.map .own) place)
    | none => callNative calls env style name args place

/-- Calls a method of a value. A pointer can be called, and so can a pointer in a map by its
name. -/
def callMethod (constant : Bool) (d : Datum) (name : String) (args : List Datum)
    (place : Option Position) : Eval Reply :=
  let noPointer (e : Datum) : Eval Reply :=
    keeping d (Eval.fail (.mismatch "Fn" e.typeName) place)
  match name, d, args with
  | "call", .pointer f r cells, _ => keeping d (callPointer calls env f r cells args place)
  | "call", _, .pointer f r cells :: more => keeping d (callPointer calls env f r cells more place)
  | "call", _, e :: _ => noPointer e
  | "call", _, [] => noPointer d
  | _, .map entries, _ =>
    match Table.get? name entries with
    | some (.pointer f r cells) => keeping d (callPointer calls env f r cells args place)
    | _ => callNamed calls env (.method constant) name (d :: args) place
  | _, _, _ => callNamed calls env (.method constant) name (d :: args) place

end Env

end PackHost.Script
