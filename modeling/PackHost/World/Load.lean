import PackHost.World.Call

/-!
# What the world does for a load

Collecting the namespace of a load, and telling the listeners of the host that a load is over.
-/

namespace PackHost

variable {ω γ : Type}

/-- The name of the event that a manager posts at its desk after every load. -/
def loadedEvent : String := "loaded"

/-- The name of the event that the host posts after every load of any manager. -/
def scriptsLoaded : String := "scripts_loaded"

namespace World

/-- The registry and the world after the functions of a desk were bound. -/
def bindRoles (d : Nat) : List DeskRole → Registry × World ω γ → Registry × World ω γ
  | [], s => s
  | role :: roles, (r, w) =>
    bindRoles d roles (r.write (.function (w.newHandle role.name (some role.arity))),
      w.define (.desk d role))

/-- What is written for a load: by the registrars, then the constants and functions that every
namespace offers. -/
def collect (w : World ω γ) (d : Nat) (kind : ScriptKind) : Registry × World ω γ :=
  let written := Registrar.collect kind w.registrars .empty
  bindRoles d [.log, .logError, .onEvent, .postEvent]
    ((standardConstants kind).foldl Registry.write written.1, { w with registrars := written.2 })

/-- Forgets the handlers that scripts registered since the last load began. -/
def dropOwned (w : World ω γ) (d : Nat) : World ω γ :=
  w.changeDesk d fun k => { k with bus := k.bus.remove k.owned, owned := [] }

def setUnit (w : World ω γ) (d : Nat) (location : Option String) : World ω γ :=
  w.changeDesk d fun k => { k with currentUnit := location }

end World

def tellAll (call : Caller ω γ) : List Function → World ω γ → Option (World ω γ)
  | [], w => some w
  | f :: fs, w =>
    match call f [] w with
    | none => none
    | some (.crashed _, w') =>
      tellAll call fs
        (w'.note (.plain .error "events" ("Handler for '" ++ scriptsLoaded ++ "' panicked")))
    | some (_, w') => tellAll call fs w'

namespace Runner

def tellLoaded (r : Runner ω γ) (w : World ω γ) : Option (World ω γ) :=
  tellAll r.call (w.lifecycle.handlers scriptsLoaded) w

end Runner

end PackHost
