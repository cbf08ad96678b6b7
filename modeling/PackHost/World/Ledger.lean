import PackHost.World.Program

/-!
# What a host notes down

A host may keep a ledger of lines and of functions that it was given. `Stock` is a stock of
functions that a host can offer to scripts.
-/

namespace PackHost

structure Part (ω α : Type) where
  get : ω → α
  put : α → ω → ω

namespace Part

variable {ω γ α : Type}

def whole : Part α α := ⟨id, fun a _ => a⟩

def modify (part : Part ω α) (f : α → α) : Program ω γ Unit :=
  Program.modify fun w => part.put (f (part.get w)) w

end Part

/-- Lines and functions that a host noted down, the newest first. -/
structure Ledger where
  lines : List String
  kept : List Function

namespace Ledger

def empty : Ledger := ⟨[], []⟩

def record (l : Ledger) (line : String) : Ledger := { l with lines := line :: l.lines }

def keep (l : Ledger) (f : Function) : Ledger := { l with kept := f :: l.kept }

end Ledger

def joinShown (separator : String) (vs : List Value) : String :=
  separator.intercalate (vs.map Value.shown)

inductive Stock where
  | constant (v : Value)
  | count
  | echo
  | first
  | kinds
  | sum
  | record
  /-- Notes down its first argument if that is a function, and says whether it is. -/
  | keep
  | apply
  | fail (f : Failure)
  | crash (message : String)

namespace Stock

instance : Inhabited Stock := ⟨.count⟩

variable {ω γ : Type}

def summand : Value → Int64
  | .int i => i
  | _ => 0

def perform (ledger : Part ω Ledger) : Stock → Native ω γ
  | .constant v, _ => .done (.done v)
  | .count, args => .done (.done (.int (Int64.ofNat args.length)))
  | .echo, args => .done (.done (.array args))
  | .first, args => .done (.done (args.headD .unit))
  | .kinds, args => .done (.done (.array (args.map fun v => .text v.kindName)))
  | .sum, args => .done (.done (.int ((args.map summand).foldl (· + ·) 0)))
  | .record, args =>
    (ledger.modify fun l => l.record (joinShown "," args)).bind fun () => .done (.done .unit)
  | .keep, .function f :: _ =>
    (ledger.modify fun l => l.keep f).bind fun () => .done (.done (.bool true))
  | .keep, _ => .done (.done (.bool false))
  | .apply, .function f :: args => .forward f args
  | .apply, _ => .done (.failed (.runtime "apply expects a function" none))
  | .fail f, _ => .done (.failed f)
  | .crash message, _ => .done (.crashed (some message))

end Stock

end PackHost
