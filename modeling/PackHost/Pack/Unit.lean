import PackHost.Failure
import PackHost.Pack.ScriptFile
import PackHost.Source.Preprocessor

/-!
# Units

A unit is a script file with its fate: the rewritten text, which is made once and then kept, and how
its last run ended.
-/

namespace PackHost.Pack

inductive Fate where
  | pending
  | loaded
  | failed (failure : UnitFailure)
deriving DecidableEq, Repr

namespace Fate

def label : Fate → String
  | .pending => "Pending"
  | .loaded => "Loaded"
  | .failed _ => "Failed"

def failure? : Fate → Option UnitFailure
  | .failed f => some f
  | _ => none

end Fate

structure ScriptUnit where
  file : ScriptFile
  prepared : Option (Except Source.Fault String)
  fate : Fate

namespace ScriptUnit

def ofFile (file : ScriptFile) : ScriptUnit := ⟨file, none, .pending⟩

def location (u : ScriptUnit) : String := u.file.location

/-- What a preprocessor makes of a text; a crash is a refusal. -/
def prepareText (p : Source.Preprocessor) (source : String) : Except Source.Fault String :=
  (p source).getD (.error (.other "preprocessor panicked"))

def prepare (u : ScriptUnit) (p : Source.Preprocessor) : ScriptUnit :=
  match u.prepared with
  | some _ => u
  | none => { u with prepared := some (prepareText p u.file.source) }

def reset (u : ScriptUnit) : ScriptUnit := { u with fate := .pending }

def fail (u : ScriptUnit) (f : UnitFailure) : ScriptUnit := { u with fate := .failed f }

def fateOf : Outcome Unit → Fate
  | .done () => .loaded
  | .failed f => .failed (.script f)
  | .crashed message => .failed (.script (.crash (Outcome.crashText message)))

/-- Runs the rewritten text; `execute` takes the location and the text. A unit without a text fails
and nothing is run. -/
def run {σ : Type} (u : ScriptUnit) (execute : String → String → σ → Option (Outcome Unit × σ))
    (s : σ) : Option (ScriptUnit × σ) :=
  match u.prepared with
  | some (.ok text) =>
    (execute u.location text s).map fun r => ({ u with fate := fateOf r.1 }, r.2)
  | some (.error f) => some (u.fail (.source f), s)
  | none => some (u.fail (.source (.other "source was not preprocessed")), s)

def order (a b : ScriptUnit) : Ordering := a.file.order b.file

end ScriptUnit

end PackHost.Pack
