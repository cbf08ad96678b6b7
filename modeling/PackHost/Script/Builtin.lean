import PackHost.Script.Arithmetic
import PackHost.Text.Case

/-!
# Functions of the language

What a script can call without the help of its host, as far as no other function is called for it.
`Builtin.answer?` is `none` where the language has no such function for the arguments.
-/

namespace PackHost.Script

/-- What a function of the language does. -/
inductive Answer where
  | value (r : Result)
  /-- It puts another value in the place of its first argument, and gives the unit. -/
  | change (r : Result)
  | quit

namespace Builtin

/-! ## Texts -/

/-- The parts of a text between the places where another text stands in it. -/
def splitAt (s part : String) : List String :=
  if part = "" then "" :: s.toList.map (fun c => String.ofList [c]) ++ [""] else s.splitOn part

/-- The text before and after the given number of characters, which are counted from the end if the
number is negative. -/
def halves (s : String) (n : Int) : List String :=
  let cs := s.toList
  let k := if n < 0 then cs.length - n.natAbs else n.toNat
  [String.ofList (cs.take k), String.ofList (cs.drop k)]

def textArray (ss : List String) : Datum := .array (ss.map .text)

/-! ## Order -/

def order : Datum → Datum → Ordering
  | .int a, .int b => compare a.toInt b.toInt
  | .float a, .float b => if a < b then .lt else if b < a then .gt else .eq
  | .char a, .char b => compare a b
  | .text a, .text b => compare a b
  | .bool a, .bool b => compare a b
  | _, _ => .eq

/-- Items in ascending order; all must be of one type. -/
def sorted : List Datum → Result
  | [] => .ok (.array [])
  | d :: ds =>
    if ds.all (sameType d) then .ok (.array ((d :: ds).mergeSort fun a b => order a b != .gt))
    else .error (.function "sort() cannot be called with elements of different types")

/-! ## Calls -/

def give (d : Datum) : Option Answer := some (.value (.ok d))

def length? : Datum → Option Nat
  | .array items => some items.length
  | .map entries => some entries.length
  | .text s => some s.length
  | _ => none

/-- What the function with the given name does with the given arguments. -/
def answer? (name : String) (args : List Datum) : Option Answer :=
  match name, args with
  | "len", [d] => (length? d).bind fun n => give (.int (Int64.ofNat n))
  | "push", [.array items, d] => some (.change (.ok (.array (items ++ [d]))))
  | "sort", [.array items] => some (.change (sorted items))
  | "keys", [.map entries] => give (textArray (entries.map Prod.fst))
  | "to_upper", [.text s] => give (.text (Text.capitalLetters s))
  | "to_upper", [.char c] => give (.text (Text.capitalLetters (String.ofList [c])))
  | "split", [.text s] => give (textArray ((Text.wordsOf s.toList).map String.ofList))
  | "split", [.text s, .text part] => give (textArray (splitAt s part))
  | "split", [.text s, .char c] => give (textArray (splitAt s (String.ofList [c])))
  | "split", [.text s, .int n] => give (textArray (halves s n.toInt))
  | "contains", [d, e] => (contains? d e).bind fun b => give (.bool b)
  | "to_string", [d] => give (.text d.shown)
  | "print", [_] => give .unit
  | "debug", [_] => give .unit
  | "exit", args => if args.length ≤ 1 then some .quit else none
  | _, _ => none

def property? (name : String) (d : Datum) : Option Datum :=
  match name, d with
  | "len", .array items => some (.int (Int64.ofNat items.length))
  | "len", .text s => some (.int (Int64.ofNat s.length))
  | "name", .pointer f _ _ => some (.text f)
  | _, _ => none

end Builtin

end PackHost.Script
