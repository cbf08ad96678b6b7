import PackHost.Pack.Unit

/-!
# Packs

A pack is a named group of units that share one context. Its units are kept in the order in which
they run.
-/

namespace PackHost.Pack

/-- A named group of units; `κ` is the type of contexts. -/
structure ScriptPack (κ : Type) where
  name : String
  description : String
  root : Files.Path
  /-- The units in the order in which they run. -/
  units : List ScriptUnit
  context : Option κ

/-- The units with one more, behind all that do not come after it. -/
def insertUnit (u : ScriptUnit) : List ScriptUnit → List ScriptUnit
  | [] => [u]
  | v :: vs => if u.order v = .lt then u :: v :: vs else v :: insertUnit u vs

namespace ScriptPack

variable {κ : Type}

def empty (name description : String) (root : Files.Path) : ScriptPack κ :=
  ⟨name, description, root, [], none⟩

def push (p : ScriptPack κ) (u : ScriptUnit) : ScriptPack κ :=
  { p with units := insertUnit u p.units }

def unit? (p : ScriptPack κ) (location : String) : Option ScriptUnit :=
  p.units.find? fun u => u.location = location

def infoOutline (p : ScriptPack κ) : Text.Outline :=
  .record "PackInfo" [("namespace", .text p.name), ("description", .text p.description)]

def outline (p : ScriptPack κ) : Text.Outline :=
  .record "ScriptPack" [("info", p.infoOutline), ("root", .text p.root.text),
    ("units", .list (p.units.map fun u => .text u.location)),
    ("has_context", .plain (if p.context.isSome then "true" else "false"))]

end ScriptPack

end PackHost.Pack
