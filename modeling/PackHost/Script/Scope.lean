import PackHost.Script.Fault

/-!
# Variables

Variables of a script, the newest first. A variable has a value of its own, until a function without
a name uses it: from then on its value is in a cell, which both of them see.
-/

namespace PackHost.Script

inductive Slot where
  | own (d : Datum)
  | shared (cell : Nat)

structure Variable where
  name : String
  /-- Whether nothing can be assigned to it. -/
  constant : Bool
  slot : Slot

abbrev Scope := List Variable

namespace Scope

def find? (s : Scope) (name : String) : Option Variable := List.find? (fun v => v.name == name) s

/-- The variables, where the newest one with the given name has another slot. -/
def place (s : Scope) (name : String) (slot : Slot) : Scope :=
  match s with
  | [] => []
  | v :: vs => if v.name == name then { v with slot := slot } :: vs else v :: place vs name slot

def oldest (s : Scope) (count : Nat) : Scope := s.drop (s.length - count)

def ofParams : List String → List Slot → Scope
  | p :: ps, a :: as => ofParams ps as ++ [⟨p, false, a⟩]
  | _, _ => []

end Scope

structure Cell where
  value : Datum
  /-- Whether nothing can be assigned to it. -/
  constant : Bool

instance : Inhabited Cell := ⟨⟨.unit, false⟩⟩

/-- The cells, which scripts share with the functions that they leave behind. -/
abbrev Cells := Array Cell

/-- What a running function has of its own: its variables, and the steps that the run has taken. -/
structure Frame where
  scope : Scope
  steps : Nat

namespace Frame

def start (scope : Scope) : Frame := ⟨scope, 0⟩

end Frame

/-- Why an evaluation ends before its result. -/
inductive Exit where
  | fault (f : Fault)
  | crash (message : Option String)
  | leave (d : Datum)
  | next
  | give (d : Datum)
  | quit (place : Option Source.Position)

namespace Exit

/-- The exit, at the given place if it has none. -/
def fillPlace (place : Option Source.Position) : Exit → Exit
  | .fault f => .fault (f.fillPlace place)
  | .quit none => .quit place
  | e => e

end Exit

end PackHost.Script
