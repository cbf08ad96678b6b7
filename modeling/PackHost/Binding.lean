import PackHost.ScriptKind
import PackHost.Value

/-!
# Namespaces

Before a load, registrars of the host write bindings and constants, each under a name. The last
writing under a name counts, and a binding hides a constant of the same name.
-/

namespace PackHost

structure Global where
  value : Value
  constant : Bool

structure Registry where
  bindings : Table Value
  constants : Table Value

inductive Writing where
  | binding (name : String) (value : Value)
  | constant (name : String) (value : Value)

namespace Writing

def function (f : Function) : Writing := .binding f.name (.function f)

end Writing

namespace Registry

def empty : Registry := ⟨[], []⟩

def write (r : Registry) : Writing → Registry
  | .binding name value => { r with bindings := r.bindings.insert name value }
  | .constant name value => { r with constants := r.constants.insert name value }

def isEmpty (r : Registry) : Bool := r.bindings.isEmpty && r.constants.isEmpty

def merged (r : Registry) : Table Global :=
  r.bindings.foldl (fun t e => t.insert e.1 ⟨e.2, false⟩)
    (r.constants.mapValues fun v => ⟨v, true⟩)

end Registry

/-- What a registrar does: it may look at what was written so far, and it writes. -/
inductive Registration where
  | done
  | look (next : Registry → Registration)
  | write (w : Writing) (next : Registration)

namespace Registration

def run : Registration → Registry → Registry
  | .done, r => r
  | .look next, r => (next r).run r
  | .write w next, r => next.run (r.write w)

end Registration

structure Registrar where
  runs : Nat
  /-- What it does in the run with the given number for scripts of the given kind. -/
  body : Nat → ScriptKind → Registration

namespace Registrar

/-- The registry after the registrars, one after another, and the registrars after their run. -/
def collect (kind : ScriptKind) : List Registrar → Registry → Registry × List Registrar
  | [], r => (r, [])
  | g :: gs, r =>
    let rest := collect kind gs ((g.body (g.runs + 1) kind).run r)
    (rest.1, { g with runs := g.runs + 1 } :: rest.2)

/-- One step of a registrar that is given as a list. -/
inductive Step where
  | write (w : Writing)
  | generation (name : String)
  | seen (name : String)

def Step.register (run : Nat) (next : Registration) : Step → Registration
  | .write w => .write w next
  | .generation name => .write (.constant name (.int (Int64.ofNat run))) next
  | .seen name =>
    .look fun r =>
      let count := r.bindings.length + r.constants.length
      .write (.binding name (.int (Int64.ofNat count))) next

def registrationOf (run : Nat) (steps : List Step) : Registration :=
  steps.foldr (fun s next => s.register run next) .done

/-- A registrar that takes the given steps, for scripts of one kind or of every kind. -/
def ofSteps (only : Option ScriptKind) (steps : List Step) : Registrar :=
  { runs := 0
    body := fun run kind =>
      if only.all (· = kind) then registrationOf run steps else .done }

end Registrar

def second : Int64 := 1000

def minute : Int64 := 60 * second

def hour : Int64 := 60 * minute

def standardConstants (kind : ScriptKind) : List Writing :=
  [.constant "SCRIPT_TYPE" (.text kind.name), .constant "SECOND" (.int second),
    .constant "MINUTE" (.int minute), .constant "HOUR" (.int hour)]

end PackHost
