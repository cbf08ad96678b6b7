import PackHost.Number.Decimal
import PackHost.Script.Tree
import PackHost.Table
import PackHost.Value

/-!
# Values of scripts

Scripts have the values of the host and a few of their own: characters, ranges and function
pointers. `Datum.ofValue` takes a value of the host over. Arrays and maps are copied when they are
assigned, so a value never changes behind the back of a variable; only cells are shared, between a
variable and the functions without a name that use it.
-/

namespace PackHost.Script

inductive Datum where
  | unit
  | bool (b : Bool)
  | int (i : Int64)
  | float (x : Float)
  | char (c : Char)
  | text (s : String)
  | array (items : List Datum)
  | map (entries : List (String × Datum))
  /-- The numbers from `low` to `high`, with `high` itself if the range is inclusive. -/
  | range (inclusive : Bool) (low high : Int64)
  /-- A function by its name, perhaps with its text, and the cells for its first parameters. -/
  | pointer (name : String) (routine : Option Routine) (cells : List Nat)
  | host (f : Function)

namespace Datum

instance : Inhabited Datum := ⟨.unit⟩

def ofLiteral : Literal → Datum
  | .unit => .unit
  | .bool b => .bool b
  | .int i => .int i
  | .float x => .float x
  | .char c => .char c
  | .text s => .text s

/-! ## Names of types -/

def typeName : Datum → String
  | .unit => "()"
  | .bool _ => "bool"
  | .int _ => "i64"
  | .float _ => "f64"
  | .char _ => "char"
  | .text _ => "string"
  | .array _ => "array"
  | .map _ => "map"
  | .range false _ _ => "range"
  | .range true _ _ => "range="
  | .pointer .. => "Fn"
  | .host _ => "rigging_scripting_host::value::HostFunction"

def textTypes : String := "&str | ImmutableString | String"

def paramType : Datum → String
  | .text _ => textTypes
  | d => d.typeName

/-- A call as it is described: the name with the types of the arguments. -/
def callText (name : String) (args : List Datum) : String :=
  name ++ " (" ++ ", ".intercalate (args.map paramType) ++ ")"

/-! ## Texts -/

/-- A float: with a point, and with an exponent if it is very great or very small. -/
def floatText (x : Float) : String :=
  PackHost.floatText "inf" x fun d =>
    let size := x.abs
    if d.coefficient = 0 then "0.0"
    else if 10000000000000.0 < size ∨ size < 0.0000000000001 then d.scientific
    else withPoint d.positional

def unsignedZero (x : Float) : Float := if x == 0.0 then 0.0 else x

mutual

def innerText : Datum → String
  | .unit => "()"
  | .bool b => if b then "true" else "false"
  | .int i => toString i.toInt
  | .float x => floatText (unsignedZero x)
  | .char c => Text.quotedChar c
  | .text s => Text.quoted s
  | .array items => "[" ++ ", ".intercalate (innerTexts items) ++ "]"
  | .map entries => "#\x7b" ++ ", ".intercalate (entryTexts entries) ++ "\x7d"
  | .range inclusive low high =>
    toString low.toInt ++ (if inclusive then "..=" else "..") ++ toString high.toInt
  | .pointer name _ _ => "Fn(" ++ name ++ ")"
  | .host _ => "rigging_scripting_host::value::HostFunction"

def innerTexts : List Datum → List String
  | [] => []
  | d :: ds => d.innerText :: innerTexts ds

def entryTexts : List (String × Datum) → List String
  | [] => []
  | e :: es => (Text.quoted e.1 ++ ": " ++ e.2.innerText) :: entryTexts es

end

def shown : Datum → String
  | .unit => ""
  | .char c => String.ofList [c]
  | .text s => s
  | d => d.innerText

/-! ## Comparison -/

mutual

/-- Whether two values are equal; numbers are compared as numbers, and otherwise values of different
types differ. -/
def same : Datum → Datum → Bool
  | .unit, .unit => true
  | .bool a, .bool b => a == b
  | .int a, .int b => a == b
  | .float a, .float b => a == b
  | .int a, .float b => Float.ofInt a.toInt == b
  | .float a, .int b => a == Float.ofInt b.toInt
  | .char a, .char b => a == b
  | .text a, .text b => a == b
  | .array a, .array b => sameItems a b
  | .map a, .map b => sameEntries a b
  | .range i a b, .range j c d => i == j && a == c && b == d
  | .pointer a _ _, .pointer b _ _ => a == b
  | _, _ => false

def sameItems : List Datum → List Datum → Bool
  | [], [] => true
  | a :: as, b :: bs => a.same b && sameItems as bs
  | _, _ => false

def sameEntries : List (String × Datum) → List (String × Datum) → Bool
  | [], [] => true
  | a :: as, b :: bs => a.1 == b.1 && a.2.same b.2 && sameEntries as bs
  | _, _ => false

end

/-! ## Values of the host -/

mutual

def ofValue : Value → Datum
  | .unit => .unit
  | .bool b => .bool b
  | .int i => .int i
  | .float x => .float x
  | .text s => .text s
  | .array items => .array (ofValues items)
  | .map entries => .map (ofEntries entries)
  | .function f => .host f

def ofValues : List Value → List Datum
  | [] => []
  | v :: vs => ofValue v :: ofValues vs

def ofEntries : List (String × Value) → List (String × Datum)
  | [] => []
  | e :: es => (e.1, ofValue e.2) :: ofEntries es

end

end Datum

end PackHost.Script
