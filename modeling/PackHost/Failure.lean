import PackHost.Source.Fault

/-!
# Failures of scripts

What can go wrong while a context is made and while a script is compiled or run. A failure at script
level is caused by the script's own text; every other failure points at the host.
-/

namespace PackHost

inductive Failure where
  | compile (message : String) (line : Option Nat)
  | runtime (message : String) (line : Option Nat)
  | host (message : String)
  | crash (message : String)
  | context (message : String)
deriving DecidableEq, Repr

namespace Failure

def atLine (message : String) : Option Nat → String
  | some line => message ++ " (line " ++ toString line ++ ")"
  | none => message

def message : Failure → String
  | .compile message line => atLine message line
  | .runtime message line => atLine message line
  | .host message => "host binding failed: " ++ message
  | .crash message => "panic while running script: " ++ message
  | .context message => "failed to create execution context: " ++ message

/-- The line the failure points at, if there is one. -/
def line? : Failure → Option Nat
  | .compile _ line => line
  | .runtime _ line => line
  | _ => none

def isScriptLevel : Failure → Bool
  | .compile .. => true
  | .runtime .. => true
  | _ => false

def causeName : Failure → String
  | .compile .. => "Compile"
  | .runtime .. => "Runtime"
  | .host _ => "Host"
  | .crash _ => "Panic"
  | .context _ => "Context"

def fields : Failure → List (String × Text.Outline)
  | .compile message line => [("message", .text message), ("line", .option .nat line)]
  | .runtime message line => [("message", .text message), ("line", .option .nat line)]
  | .host message => [("message", .text message)]
  | .crash message => [("message", .text message)]
  | .context message => [("message", .text message)]

def outline (f : Failure) : Text.Outline := .record f.causeName f.fields

end Failure

inductive Outcome (α : Type) where
  | done (a : α)
  | failed (f : Failure)
  /-- With a crash, whose message is known if the crash carried a text. -/
  | crashed (message : Option String)
deriving DecidableEq, Repr

namespace Outcome

def crashText (message : Option String) : String := message.getD "unknown panic"

/-- The result or the failure; a crash is a failure of its own. -/
def toExcept {α : Type} : Outcome α → Except Failure α
  | .done a => .ok a
  | .failed f => .error f
  | .crashed message => .error (.crash (crashText message))

end Outcome

/-- Why a unit failed: its text was refused, or its run failed. -/
inductive UnitFailure where
  | source (fault : Source.Fault)
  | script (failure : Failure)
deriving DecidableEq, Repr

namespace UnitFailure

def message : UnitFailure → String
  | .source fault => fault.message
  | .script failure => failure.message

def causeName : UnitFailure → String
  | .source fault => fault.causeName
  | .script failure => failure.causeName

/-- The line the failure points at, if there is one. -/
def line? : UnitFailure → Option Nat
  | .source fault => fault.line?
  | .script failure => failure.line?

def isScriptLevel : UnitFailure → Bool
  | .source (.other _) => false
  | .source _ => true
  | .script failure => failure.isScriptLevel

def outline : UnitFailure → Text.Outline
  | .source fault => .tuple "Preprocess" [fault.outline]
  | .script failure => .tuple "Script" [failure.outline]

end UnitFailure

end PackHost
