import PackHost.Manager.Discover

/-!
# Loading packs

A load writes the namespace anew, prepares the texts of all units, and then runs the units of one
pack after another, each pack in a fresh context. Failures are reported and do not keep other units
from running.
-/

namespace PackHost.Manager

open Pack

variable {ω γ κ : Type}

/-- Times are not measured; this mark stands for the seconds that something took. -/
def elapsed : String := "#"

structure Pass (ω γ : Type) where
  world : World ω γ
  summary : Summary
  errors : List String

namespace Pass

def count (p : Pass ω γ) : Pass ω γ :=
  { p with summary := { p.summary with total := p.summary.total + 1 } }

def countLoaded (p : Pass ω γ) : Pass ω γ :=
  { p with summary := { p.summary with loaded := p.summary.loaded + 1 } }

def say (p : Pass ω γ) (d : Nat) (level : Level) (text : String) : Pass ω γ :=
  { p with world := p.world.say d level text }

/-- Reports a failed unit; failures of the host are shown in full. -/
def reportFailure (p : Pass ω γ) (kind : ScriptKind) (d : Nat) (location : String)
    (f : UnitFailure) : Pass ω γ :=
  let entry := location ++ ": " ++ f.message
  let said := p.say d .error ("Error loading " ++ kind.name ++ " script " ++ entry)
  let shown := if f.isScriptLevel then said else said.say d .error f.outline.block
  { shown with errors := shown.errors ++ [entry] }

def report (p : Pass ω γ) (kind : ScriptKind) (d : Nat) (u : ScriptUnit) : Pass ω γ :=
  match u.fate with
  | .pending => p
  | .loaded =>
    p.countLoaded.say d .info ("Loaded script " ++ u.location ++ " in " ++ elapsed ++ " s")
  | .failed f => p.reportFailure kind d u.location f

end Pass

def runUnits (plan : Plan ω γ κ) (d : Nat) (r : Runner ω γ) :
    List ScriptUnit → κ → Pass ω γ → Option (List ScriptUnit × κ × Pass ω γ)
  | [], c, p => some ([], c, p)
  | u :: us, c, p =>
    let begun := p.count
    let world := begun.world.setUnit d (some u.location)
    match u.reset.run (plan.engine.execute r.run) (c, world) with
    | none => none
    | some (u', c', world') =>
      match runUnits plan d r us c' ({ begun with world := world' }.report plan.kind d u') with
      | none => none
      | some (us', c'', p') => some (u' :: us', c'', p')

def failUnits (plan : Plan ω γ κ) (d : Nat) (f : Failure) :
    List ScriptUnit → Pass ω γ → List ScriptUnit × Pass ω γ
  | [], p => ([], p)
  | u :: us, p =>
    let failed := u.fail (.script f)
    let rest := failUnits plan d f us (p.count.report plan.kind d failed)
    (failed :: rest.1, rest.2)

def loadPack (plan : Plan ω γ κ) (d : Nat) (r : Runner ω γ) (globals : Table Global)
    (k : ScriptPack κ) (p : Pass ω γ) : Option (ScriptPack κ × Pass ω γ) :=
  match plan.engine.create ⟨k.name, globals, plan.restriction⟩ with
  | .error f =>
    let told := p.say d .error
      ("Failed to create context for pack " ++ k.name ++ ": " ++ f.outline.line)
    let failed := failUnits plan d f k.units told
    some ({ k with units := failed.1, context := none }, failed.2)
  | .ok c =>
    match runUnits plan d r k.units c p with
    | none => none
    | some (units, c', p') => some ({ k with units, context := some c' }, p')

def loadPacks (plan : Plan ω γ κ) (d : Nat) (r : Runner ω γ) (globals : Table Global) :
    List (ScriptPack κ) → Pass ω γ → Option (List (ScriptPack κ) × Pass ω γ)
  | [], p => some ([], p)
  | k :: ks, p =>
    match loadPack plan d r globals k p with
    | none => none
    | some (k', p') =>
      match loadPacks plan d r globals ks p' with
      | none => none
      | some (ks', p'') => some (k' :: ks', p'')

def preparePacks (plan : Plan ω γ κ) (packs : List (ScriptPack κ)) : List (ScriptPack κ) :=
  packs.map fun k => { k with units := k.units.map fun u => u.prepare plan.preprocessor }

def summaryLine (kind : ScriptKind) (s : Summary) : Line :=
  ⟨if s.loaded = s.total then .info else .error,
    "Loaded " ++ toString s.loaded ++ "/" ++ toString s.total ++ " " ++ kind.name ++
      " scripts in " ++ elapsed ++ " s"⟩

def load (m : Manager ω γ κ) (r : Runner ω γ) (w : World ω γ) :
    Option (Manager ω γ κ × World ω γ) :=
  let collected := (w.dropOwned m.desk).collect m.desk m.plan.kind
  let packs := preparePacks m.plan m.packs
  match loadPacks m.plan m.desk r collected.1.merged packs ⟨collected.2, ⟨0, 0⟩, []⟩ with
  | none => none
  | some (packs, p) =>
    let line := summaryLine m.plan.kind p.summary
    let closed := (p.world.setUnit m.desk none).say m.desk line.level line.text
    let loaded : Manager ω γ κ :=
      { m with
        state := .loaded
        packs := packs
        registry := collected.1
        errors := p.errors
        summary := p.summary }
    match r.post m.desk loadedEvent .unit closed with
    | none => none
    | some (_, posted) => (r.tellLoaded posted).map fun told => (loaded, told)

def unload (m : Manager ω γ κ) (w : World ω γ) : Manager ω γ κ × World ω γ :=
  ({ m with packs := [], state := .unloaded },
    w.changeDesk m.desk fun k => { k with bus := k.bus.clear, owned := [] })

def reload (m : Manager ω γ κ) (r : Runner ω γ) (t : Files.Tree) (w : World ω γ) :
    Option (Manager ω γ κ × Files.Tree × World ω γ) :=
  let unloaded := m.unload w
  let found := unloaded.1.discover t unloaded.2
  (found.1.load r found.2.2).map fun s => (s.1, found.2.1, s.2)

def roots (m : Manager ω γ κ) : List Files.Path := m.packs.map ScriptPack.root

end PackHost.Manager
