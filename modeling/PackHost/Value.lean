import PackHost.Number.Decimal
import PackHost.Table
import PackHost.Text.Outline

/-!
# Values that cross between the host and its scripts

A value holds data, or a handle of a function. Functions are compared by their handles: two values
hold the same function exactly if they hold the same handle (`Function.same`).
-/

namespace PackHost

structure Function where
  name : String
  /-- How many arguments it takes; any number if absent. -/
  arity : Option Nat
  id : Nat
deriving DecidableEq, Repr

namespace Function

instance : Inhabited Function := ⟨"", none, 0⟩

def same (f g : Function) : Bool := f.id == g.id

def outline (f : Function) : Text.Outline :=
  .record "HostFunction" [("name", .text f.name), ("arity", .option .nat f.arity)]

end Function

/-- A value that crosses between the host and its scripts. -/
inductive Value where
  | unit
  | bool (b : Bool)
  | int (i : Int64)
  | float (x : Float)
  | text (s : String)
  | array (items : List Value)
  /-- Values under names, in ascending order of the names. -/
  | map (entries : List (String × Value))
  | function (f : Function)

namespace Value

instance : Inhabited Value := ⟨.unit⟩

def kindName : Value → String
  | .unit => "unit"
  | .bool _ => "bool"
  | .int _ => "int"
  | .float _ => "float"
  | .text _ => "string"
  | .array _ => "array"
  | .map _ => "map"
  | .function _ => "function"

def isUnit : Value → Bool
  | .unit => true
  | _ => false

def bool? : Value → Option Bool
  | .bool b => some b
  | _ => none

def int? : Value → Option Int64
  | .int i => some i
  | _ => none

/-- The number as a float; an integer is rounded to the nearest one. -/
def float? : Value → Option Float
  | .float x => some x
  | .int i => some (Float.ofInt i.toInt)
  | _ => none

def text? : Value → Option String
  | .text s => some s
  | _ => none

def function? : Value → Option Function
  | .function f => some f
  | _ => none

mutual

def shown : Value → String
  | .unit => "()"
  | .bool b => if b then "true" else "false"
  | .int i => toString i.toInt
  | .float x => plainFloatText x
  | .text s => s
  | .array items => "[" ++ ", ".intercalate (shownItems items) ++ "]"
  | .map entries => "#\x7b" ++ ", ".intercalate (shownEntries entries) ++ "\x7d"
  | .function f => "fn " ++ f.name

def shownItems : List Value → List String
  | [] => []
  | v :: vs => v.shown :: shownItems vs

def shownEntries : List (String × Value) → List String
  | [] => []
  | e :: es => (e.1 ++ ": " ++ e.2.shown) :: shownEntries es

end

mutual

/-- Whether two values are equal: floats as numbers, functions by their handles. -/
def same : Value → Value → Bool
  | .unit, .unit => true
  | .bool a, .bool b => a == b
  | .int a, .int b => a == b
  | .float a, .float b => a == b
  | .text a, .text b => a == b
  | .array a, .array b => sameItems a b
  | .map a, .map b => sameEntries a b
  | .function a, .function b => a.same b
  | _, _ => false

def sameItems : List Value → List Value → Bool
  | [], [] => true
  | a :: as, b :: bs => a.same b && sameItems as bs
  | _, _ => false

def sameEntries : List (String × Value) → List (String × Value) → Bool
  | [], [] => true
  | a :: as, b :: bs => a.1 == b.1 && a.2.same b.2 && sameEntries as bs
  | _, _ => false

end

end Value

end PackHost
