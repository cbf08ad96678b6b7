import PackHost.Language.Basic
import PackHost.Script.Datum

/-!
# Faults of scripts

What can go wrong while a script runs, with the place where it went wrong and the calls around it. A
script can catch a fault unless the host or a budget is to blame; a fault that has left a function
of the script can be caught in any case but the first.
-/

namespace PackHost.Script

open Source (Position)

inductive Cause where
  | variable_ (name : String)
  | function (call : String)
  | constant (name : String)
  | method (name : String)
  | property (name type : String)
  | assignment (name type value : String)
  | mismatch (wanted found : String)
  | items (type : String)
  | iteration
  | array (length : Nat) (index : Int)
  | string (length : Nat) (index : Int)
  | arithmetic (message : String)
  | raised (d : Datum)
  | text (message : String)
  | depth
  | steps
  | host (function message : String)

namespace Cause

def onlyText (n : Nat) (one many whole : String) : String :=
  if n = 0 then whole ++ " is empty"
  else if n = 1 then "only 1 " ++ one ++ " in " ++ whole
  else "only " ++ toString n ++ " " ++ many ++ " in " ++ whole

def message : Cause → String
  | .variable_ name => "Variable not found: " ++ name
  | .function call => "Function not found: " ++ call
  | .constant name => "Cannot modify constant " ++ name
  | .method name => "Non-pure method '" ++ name ++ "' cannot be called on constant"
  | .property name type =>
    "Unknown property '" ++ name ++ "' - a getter is not registered for type '" ++ type ++ "'"
  | .assignment name type value =>
    "No writable property '" ++ name ++ "' - a setter is not registered for type '" ++ type ++
      "' to handle '" ++ value ++ "'"
  | .mismatch wanted found => "Data type incorrect: " ++ found ++ " (expecting " ++ wanted ++ ")"
  | .items type => "Indexer unavailable: " ++ type
  | .iteration => "For loop expects iterable type"
  | .array length index =>
    "Array index " ++ toString index ++ " out of bounds: " ++
      onlyText length "element" "elements" "array"
  | .string length index =>
    "String index " ++ toString index ++ " out of bounds: " ++
      onlyText length "character" "characters" "string"
  | .arithmetic message => message
  | .raised d => if d.shown = "" then "Runtime error" else "Runtime error: " ++ d.shown
  | .text message => "Syntax error: " ++ message
  | .depth => "Stack overflow"
  | .steps => "Too many operations"
  | .host name message => name ++ ": " ++ message

def label : Cause → String
  | .variable_ _ => "ErrorVariableNotFound"
  | .function _ => "ErrorFunctionNotFound"
  | .constant _ => "ErrorAssignmentToConstant"
  | .method _ => "ErrorNonPureMethodCallOnConstant"
  | .property .. => "ErrorDotExpr"
  | .assignment .. => "ErrorDotExpr"
  | .mismatch .. => "ErrorMismatchDataType"
  | .items _ => "ErrorIndexingType"
  | .iteration => "ErrorFor"
  | .array .. => "ErrorArrayBounds"
  | .string .. => "ErrorStringBounds"
  | .arithmetic _ => "ErrorArithmetic"
  | .raised _ => "ErrorRuntime"
  | .text _ => "ErrorParsing"
  | .depth => "ErrorStackOverflow"
  | .steps => "ErrorTooManyOperations"
  | .host .. => "ErrorSystem"

def details : Cause → List (String × Datum)
  | .variable_ name | .constant name => [("variable", .text name)]
  | .function call => [("function", .text call)]
  | .method name => [("function", .text name)]
  | .property .. | .assignment .. => [("property", .text "")]
  | .mismatch wanted found => [("actual", .text found), ("requested", .text wanted)]
  | .items type => [("type", .text type)]
  | .array length index | .string length index =>
    [("index", .int (Int64.ofInt index)), ("length", .int (Int64.ofNat length))]
  | _ => []

/-- Whether the cause belongs to the host, so that it passes through calls as it is. -/
def isForeign : Cause → Bool
  | .host .. | .text _ => true
  | _ => false

def isCatchable : Cause → Bool
  | .host .. | .text _ | .depth | .steps => false
  | _ => true

def toError (c : Cause) (place : Option Position) : EvalError Datum :=
  match c with
  | .raised d => .raised d place
  | .host name message => .system name message
  | c => .other c.message place

end Cause

structure CallFrame where
  name : String
  source : String
  place : Option Position

structure Fault where
  cause : Cause
  place : Option Position
  frames : List CallFrame

namespace Fault

def new (cause : Cause) (place : Option Position) : Fault := ⟨cause, place, []⟩

def isCatchable (f : Fault) : Bool := !f.frames.isEmpty || f.cause.isCatchable

/-- The fault, at the given place if it has none. -/
def fillPlace (f : Fault) (place : Option Position) : Fault :=
  match f.frames with
  | [] => if f.place.isNone then { f with place := place } else f
  | frame :: frames =>
    if frame.place.isNone then { f with frames := { frame with place := place } :: frames } else f

def leave (f : Fault) (name source : String) (place : Option Position) : Fault :=
  if f.cause.isForeign then { f with place := place }
  else { f with frames := ⟨name, source, place⟩ :: f.frames }

def outerPlace (f : Fault) : Option Position :=
  match f.frames with
  | [] => f.place
  | frame :: _ => frame.place

def setOuterPlace (f : Fault) (place : Option Position) : Fault :=
  match f.frames with
  | [] => { f with place := place }
  | frame :: frames => { f with frames := { frame with place := place } :: frames }

def withPlace (message : String) : Option Position → String
  | none => message
  | some p => message ++ Language.suffix p

/-- The message with the calls around it; the outermost place is left out. -/
def trace (cause : Cause) (place : Option Position) : List CallFrame → String
  | [] => cause.message
  | frame :: frames =>
    let inner := trace cause place frames
    let innerPlace := match frames with
      | [] => place
      | f :: _ => f.place
    withPlace inner innerPlace ++ " in call to function '" ++ frame.name ++ "'" ++
      (if frame.source = "" then "" else " @ '" ++ frame.source ++ "'")

/-- What a script sees of a fault that it catches: the value that was raised, or a map that
describes the fault. -/
def caught (f : Fault) (source : String) : Datum :=
  match f.cause with
  | .raised d => d
  | cause =>
    let label := if f.frames.isEmpty then cause.label else "ErrorInFunctionCall"
    let details := match f.frames with
      | [] => cause.details
      | frame :: _ => [("function", .text frame.name), ("source", .text frame.source)]
    let place := match f.outerPlace with
      | none => []
      | some p =>
        [("line", .int (Int64.ofNat p.line)), ("position", .int (Int64.ofNat p.column))]
    let named := if source = "" then [] else [("source", .text source)]
    .map (Table.ofPairs ([("message", Datum.text (trace cause f.place f.frames))] ++ named ++ place ++
      [("error", .text label)] ++ details))

def toError (f : Fault) : EvalError Datum :=
  f.frames.foldr (fun frame inner => .inCall frame.name frame.source inner frame.place)
    (f.cause.toError f.place)

end Fault

def display : EvalError Datum → String
  | .inCall name source inner place =>
    Fault.withPlace (display inner ++ " in call to function '" ++ name ++ "'" ++
      (if source = "" then "" else " @ '" ++ source ++ "'")) place
  | .inModule path inner place =>
    Fault.withPlace ("Error in module " ++ (if path = "" then "" else path ++ " ") ++ "> " ++
      display inner) place
  | .system function message =>
    if function = "" then message else function ++ ": " ++ message
  | .raised d place => Fault.withPlace (Cause.raised d).message place
  | .other message place => Fault.withPlace message place

end PackHost.Script
