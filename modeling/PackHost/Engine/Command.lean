import PackHost.Engine.Basic
import PackHost.Text.Alphabet
import PackHost.World.Ledger

/-!
# The command engine

A small engine whose scripts are lines of words. The first word of a line is a command, the others
are values. All lines are checked before the first one runs.
-/

namespace PackHost.Command

open PackHost

def words : List Char → List (List Char)
  | [] => []
  | c :: cs =>
    if Text.isAsciiBlank c then words cs
    else
      match cs with
      | [] => [[c]]
      | d :: _ =>
        if Text.isAsciiBlank d then [c] :: words cs
        else
          match words cs with
          | [] => [[c]]
          | w :: ws => (c :: w) :: ws

def lines : List Char → List (List Char)
  | [] => [[]]
  | c :: cs =>
    if c = '\n' then [] :: lines cs
    else
      match lines cs with
      | [] => [[c]]
      | l :: ls => (c :: l) :: ls

structure Statement where
  line : Nat
  verb : String
  rest : List String

/-- The statement of a line, if it holds one. -/
def statement? (line : Nat) (text : List Char) : Option Statement :=
  match words text with
  | [] => none
  | w :: ws =>
    if ['/', '/'].isPrefixOf w then none
    else some ⟨line, String.ofList w, ws.map String.ofList⟩

/-- The statements of lines, the first of which has the given number. -/
def statements (line : Nat) : List (List Char) → List Statement
  | [] => []
  | l :: ls => (statement? line l).toList ++ statements (line + 1) ls

def verbs : List String :=
  ["set", "let", "call", "fail", "reject", "host_fail", "panic", "panic_str", "panic_any"]

/-- The failure of the first statement whose command is unknown. -/
def unknownVerb? (location : String) (ss : List Statement) : Option Failure :=
  (ss.find? fun s => !verbs.contains s.verb).map fun s =>
    .compile (location ++ ": unknown command '" ++ s.verb ++ "'") (some s.line)

/-- The functions that the engine creates. -/
inductive Made where
  | tag (name : String)
  | fails (message : String)

namespace Made

variable {ω γ : Type}

def perform (ledger : Part ω Ledger) : Made → Native ω γ
  | .tag name, args =>
    (ledger.modify fun l => l.record (name ++ "(" ++ joinShown ", " args ++ ")")).bind fun () =>
      .done (.done .unit)
  | .fails message, _ => .done (.failed (.runtime message none))

end Made

def digits? : List Char → Option Nat
  | [] => none
  | cs => if cs.all Char.isDigit then
      some (cs.foldl (fun n c => 10 * n + (c.toNat - '0'.toNat)) 0) else none

def integer? (word : List Char) : Option Int64 :=
  let value? : Option Int := match word with
    | '-' :: cs => (digits? cs).map fun n => -(n : Int)
    | '+' :: cs => (digits? cs).map fun n => (n : Int)
    | cs => (digits? cs).map fun n => (n : Int)
  (value?.filter fun i => Int64.minValue.toInt ≤ i ∧ i ≤ Int64.maxValue.toInt).map Int64.ofInt

abbrev Context := Table Global

section

variable {ω γ : Type} (wrap : Made → γ)

def value (c : Context) (word : String) : Program ω γ Value :=
  match word.toList with
  | '$' :: name =>
    .done (((c.get? (String.ofList name)).map Global.value).getD .unit)
  | '@' :: name =>
    .create (String.ofList name) none (wrap (.tag (String.ofList name))) fun f =>
      .done (.function f)
  | '!' :: message =>
    .create "fails" none (wrap (.fails (String.ofList message))) fun f => .done (.function f)
  | cs =>
    if word = "true" then .done (.bool true)
    else if word = "false" then .done (.bool false)
    else if word = "()" then .done .unit
    else
      match integer? cs with
      | some i => .done (.int i)
      | none => .done (.text word)

def values (c : Context) : List String → Program ω γ (List Value)
  | [] => .done []
  | w :: ws =>
    (value wrap c w).bind fun v => (values c ws).bind fun vs => .done (v :: vs)

def isConstant (c : Context) (name : String) : Bool :=
  ((c.get? name).map Global.constant).getD false

def step (c : Context) (s : Statement) : Program ω γ (Outcome Unit × Context) :=
  let rest := " ".intercalate s.rest
  let stop (o : Outcome Unit) : Program ω γ (Outcome Unit × Context) := .done (o, c)
  if s.verb = "set" ∨ s.verb = "let" then
    let name := s.rest.headD ""
    if isConstant c name then
      stop (.failed (.runtime ("cannot assign to constant '" ++ name ++ "'") (some s.line)))
    else
      let assign (v : Value) : Program ω γ (Outcome Unit × Context) :=
        .done (.done (), c.insert name ⟨v, false⟩)
      match s.rest with
      | _ :: w :: _ => (value wrap c w).bind assign
      | _ => assign .unit
  else if s.verb = "call" then
    let name := s.rest.headD ""
    match ((c.get? name).map Global.value).bind Value.function? with
    | none => stop (.failed (.runtime ("unknown function '" ++ name ++ "'") (some s.line)))
    | some f =>
      (values wrap c (s.rest.drop 1)).bind fun args =>
        .call f args fun
          | .done v => .done (.done (), c.insert "_" ⟨v, false⟩)
          | .failed e => stop (.failed e)
          | .crashed message => stop (.crashed message)
  else if s.verb = "fail" then stop (.failed (.runtime rest (some s.line)))
  else if s.verb = "reject" then stop (.failed (.compile rest none))
  else if s.verb = "host_fail" then stop (.failed (.host rest))
  else if s.verb = "panic" then stop (.crashed (some rest))
  else if s.verb = "panic_str" then stop (.crashed (some "static message"))
  else stop (.crashed none)

def steps : List Statement → Context → Program ω γ (Outcome Unit × Context)
  | [], c => .done (.done (), c)
  | s :: ss, c =>
    (step wrap c s).bind fun
      | (.done (), c') => steps ss c'
      | r => .done r

def run (c : Context) (location text : String) : Program ω γ (Outcome Unit × Context) :=
  let ss := statements 1 (lines text.toList)
  match unknownVerb? location ss with
  | some f => .done (.failed f, c)
  | none => steps wrap ss c

/-- A fresh context: the namespace without the names that are kept from scripts. -/
def create (spec : ContextSpec) : Except Failure Context :=
  if "broken".toList.isPrefixOf spec.pack.toList then
    .error (.context ("no engine available for " ++ spec.pack))
  else .ok (spec.globals.filter fun e => !spec.restriction.contains e.1)

def engine : Engine ω γ Context where
  name := "toy"
  extension := "toy"
  create := create
  run := run wrap
  has c name := c.contains name
  global c name := .done ((c.get? name).map Global.value)
  names c := Table.names c

end

end PackHost.Command
