import PackHost.Files.Path
import PackHost.Source.Downlevel

/-!
# Headers of script files

A script file may start with comment lines that hold directives: `// priority: 10` and
`// ignored: true`. Blank lines and other comments may stand between them. The header ends with the
first line that is neither blank nor a comment.
-/

namespace PackHost.Pack

structure Header where
  /-- Files with a higher priority run earlier; it fits 32 bits. -/
  priority : Int
  ignored : Bool
deriving DecidableEq, Repr

structure Misread where
  line : Nat
  directive : String
  value : String
deriving DecidableEq, Repr

def digitsValue? : List Char → Option Nat
  | [] => none
  | cs => if cs.all Char.isDigit then
      some (cs.foldl (fun n c => 10 * n + (c.toNat - '0'.toNat)) 0) else none

def fits32 (n : Int) : Bool := -2147483648 ≤ n && n ≤ 2147483647

/-- The priority that a text stands for: an optional sign and decimal digits. -/
def priority? (text : List Char) : Option Int :=
  let value? := match text with
    | '-' :: cs => (digitsValue? cs).map fun n => -(n : Int)
    | '+' :: cs => (digitsValue? cs).map fun n => (n : Int)
    | cs => (digitsValue? cs).map fun n => (n : Int)
  value?.filter fits32

def truth? (text : List Char) : Option Bool :=
  if text = "true".toList then some true
  else if text = "false".toList then some false
  else none

inductive HeaderLine where
  | code
  | nothing
  | directive (key value : List Char)
deriving DecidableEq, Repr

def HeaderLine.ofText : List Char → HeaderLine
  | [] => .nothing
  | '/' :: '/' :: comment =>
    if ':' ∈ comment then
      .directive (Source.trim (comment.takeWhile (· ≠ ':')))
        (Source.trim ((comment.dropWhile (· ≠ ':')).drop 1))
    else .nothing
  | _ => .code

namespace Header

def default : Header := ⟨0, false⟩

def apply (h : Header) (line : Nat) (key value : List Char) : Except Misread Header :=
  let misread : Misread := ⟨line, String.ofList key, String.ofList value⟩
  if key = "priority".toList then
    match priority? value with
    | some n => .ok { h with priority := n }
    | none => .error misread
  else if key = "ignored".toList then
    match truth? value with
    | some b => .ok { h with ignored := b }
    | none => .error misread
  else .ok h

def readLines (h : Header) (line : Nat) : List (List Char) → Except Misread Header
  | [] => .ok h
  | l :: ls =>
    match HeaderLine.ofText (Source.trim l) with
    | .code => .ok h
    | .nothing => h.readLines (line + 1) ls
    | .directive key value =>
      match h.apply line key value with
      | .error m => .error m
      | .ok h' => h'.readLines (line + 1) ls

def read (source : String) : Except Misread Header :=
  default.readLines 1 (Files.splitAtAll '\n' source.toList)

end Header

end PackHost.Pack
