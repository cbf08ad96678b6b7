import PackHost.Engine.Limits
import PackHost.Language.Session
import PackHost.Source.Position

/-!
# Languages

What a host makes use of when it runs scripts in a language: reading a text, putting trees together,
running a tree, calling a function of a script, and telling values apart. A `Language` is all of
this and nothing more; what the host does with it is in `PackHost.Language.Context`.
-/

namespace PackHost

open Source (Position)

/-! ## Values -/

/-- The types by which a host tells the values of scripts apart. -/
inductive Datatype where
  | unit | bool | int | float | text | array | map | pointer | host
deriving DecidableEq, Repr

/-- What a value of the type is made of, where `δ` are the values and `π` the function pointers. -/
abbrev Datatype.Content (δ π : Type) : Datatype → Type
  | .unit => Unit
  | .bool => Bool
  | .int => Int64
  | .float => Float
  | .text => String
  | .array => List δ
  | .map => List (String × δ)
  | .pointer => π
  | .host => Function

/-- The value of a variable: its own, or one that it shares through the memory. -/
inductive Held (μ δ : Type) where
  | own (d : δ)
  | shared (read : μ → δ)

/-! ## Errors -/

/-- A text that is no script. -/
structure TextFault where
  message : String
  line : Option Nat

/-- Why an evaluation failed. -/
inductive EvalError (δ : Type) where
  /-- An error inside a function of a script, as its caller sees it. -/
  | inCall (name source : String) (inner : EvalError δ) (place : Option Position)
  /-- An error inside a module, as those see it who use the module. -/
  | inModule (path : String) (inner : EvalError δ) (place : Option Position)
  /-- A registered function failed for a reason that is not the script's. -/
  | system (function message : String)
  | raised (d : δ) (place : Option Position)
  /-- Whatever else the language finds wrong. -/
  | other (message : String) (place : Option Position)

namespace EvalError

variable {δ : Type}

/-- The error without the calls and modules around it. -/
def innermost : EvalError δ → EvalError δ
  | .inCall _ _ e _ => e.innermost
  | .inModule _ e _ => e.innermost
  | e => e

def place? : EvalError δ → Option Position
  | .inCall _ _ _ place => place
  | .inModule _ _ place => place
  | .system .. => none
  | .raised _ place => place
  | .other _ place => place

end EvalError

/-- How an evaluation ended. -/
inductive Ended (δ α : Type) where
  | value (a : α)
  | failed (e : EvalError δ)
  | crashed (message : Option String)

/-! ## Languages -/

/-- What holds for all scripts of a context: words that have no meaning, and budgets. -/
structure Rules where
  off : List String
  limits : Limits

/-- A language as its host sees it. -/
structure Language where
  Datum : Type
  Pointer : Type
  /-- What evaluations share with each other. -/
  Memory : Type
  Routine : Type
  Statement : Type
  Tree : Type
  /-- Variables with their values. -/
  Scope : Type
  make : (t : Datatype) → t.Content Datum Pointer → Datum
  /-- What the value is made of, if it is of the type. -/
  test : (t : Datatype) → Datum → Option (t.Content Datum Pointer)
  shown : Datum → String
  /-- Items and entries are smaller than the values that they are in. -/
  rank : Datum → Nat
  rank_item : ∀ {d : Datum} {ds : List Datum}, test .array d = some ds →
    ∀ e ∈ ds, rank e < rank d
  rank_entry : ∀ {d : Datum} {es : List (String × Datum)}, test .map d = some es →
    ∀ e ∈ es, rank e.2 < rank d
  pointerName : Pointer → String
  routineName : Routine → String
  routineCount : Routine → Nat
  /-- Reads a text in which the given words have no meaning. -/
  compile : List String → String → Except TextFault Tree
  empty : Tree
  merge : Tree → Tree → Tree
  combine : Tree → Tree → Tree
  functionsOnly : Tree → Tree
  functions : Tree → List Routine
  functions_empty : functions empty = []
  statements : Tree → List Statement
  noVariables : Scope
  /-- Adds a variable by its name, whether it is constant, and its value. -/
  push : String → Bool → Datum → Scope → Scope
  contains : Scope → String → Bool
  find? : Scope → String → Option (Held Memory Datum)
  variableNames : Scope → List String
  /-- Whether the language has a function of the name for the types of just these values. -/
  builtin : String → List Datum → Bool
  /-- Whether the language has a function of the name for so many values of any types. -/
  general : String → Nat → Bool
  /-- Runs the statements of a tree, which came from the given location. -/
  run : Rules → String → Tree → Scope → Session Memory Datum (Ended Datum Unit × Scope)
  /-- Calls a function through a pointer, among the functions of a tree. -/
  call : Rules → Tree → Pointer → List Datum → Session Memory Datum (Ended Datum Datum)
  display : EvalError Datum → String

namespace Language

variable (L : Language)

/-- The function of a tree with the given name and number of parameters. -/
def routine? (t : L.Tree) (name : String) (count : Nat) : Option L.Routine :=
  (L.functions t).find? fun r => L.routineName r == name && L.routineCount r == count

/-! ## Values of the host -/

mutual

def encode : Value → L.Datum
  | .unit => L.make .unit ()
  | .bool b => L.make .bool b
  | .int i => L.make .int i
  | .float x => L.make .float x
  | .text s => L.make .text s
  | .array items => L.make .array (encodeAll items)
  | .map entries => L.make .map (encodeEntries entries)
  | .function f => L.make .host f

def encodeAll : List Value → List L.Datum
  | [] => []
  | v :: vs => encode v :: encodeAll vs

def encodeEntries : List (String × Value) → List (String × L.Datum)
  | [] => []
  | e :: es => (e.1, encode e.2) :: encodeEntries es

end

/-! ## Failures as the host sees them -/

/-- A place behind a message. -/
def suffix (p : Position) : String :=
  " (line " ++ toString p.line ++ ", position " ++ toString p.column ++ ")"

/-- The text without the given end, if it has that end. -/
def withoutEnd (s tail : String) : String :=
  if tail.toList.isSuffixOf s.toList then
    String.ofList (s.toList.take (s.toList.length - tail.toList.length))
  else s

/-- The failure that the host sees in an error: that of the host if a function of the host is to
blame, and one of the script otherwise. -/
def failureOf (e : EvalError L.Datum) : Failure :=
  let inner := e.innermost
  match inner with
  | .system function message => .host (function ++ ": " ++ message)
  | _ =>
    let message := L.display inner
    .runtime
      (match inner.place? with
        | some p => withoutEnd message (suffix p)
        | none => message)
      ((inner.place?.or e.place?).map Position.line)

def outcomeOf {α : Type} : Ended L.Datum α → Outcome α
  | .value a => .done a
  | .failed e => .failed (L.failureOf e)
  | .crashed message => .crashed message

end Language

end PackHost
