import PackHost.Source.Position

/-!
# Scripts as trees

What a script consists of once it is read: expressions, statements and functions. A place is kept
wherever something can go wrong. A name is `known` if the same text declares it before.
-/

namespace PackHost.Script

open Source (Position)

inductive Literal where
  | unit
  | bool (b : Bool)
  | int (i : Int64)
  | float (x : Float)
  | char (c : Char)
  | text (s : String)

inductive UnaryOp where
  | negate
  | keep
  | not
deriving DecidableEq, Repr

namespace UnaryOp

def sign : UnaryOp → String
  | .negate => "-"
  | .keep => "+"
  | .not => "!"

end UnaryOp

/-- The operators on two values that evaluate both. -/
inductive BinaryOp where
  | add | subtract | multiply | divide | modulo | power
  | shiftLeft | shiftRight | bitAnd | bitOr | bitXor
  | equal | unequal | less | lessOrEqual | greater | greaterOrEqual
  | range | rangeInclusive
deriving DecidableEq, Repr

namespace BinaryOp

def sign : BinaryOp → String
  | .add => "+"
  | .subtract => "-"
  | .multiply => "*"
  | .divide => "/"
  | .modulo => "%"
  | .power => "**"
  | .shiftLeft => "<<"
  | .shiftRight => ">>"
  | .bitAnd => "&"
  | .bitOr => "|"
  | .bitXor => "^"
  | .equal => "=="
  | .unequal => "!="
  | .less => "<"
  | .lessOrEqual => "<="
  | .greater => ">"
  | .greaterOrEqual => ">="
  | .range => ".."
  | .rangeInclusive => "..="

def all : List BinaryOp :=
  [.add, .subtract, .multiply, .divide, .modulo, .power, .shiftLeft, .shiftRight, .bitAnd, .bitOr,
    .bitXor, .equal, .unequal, .less, .lessOrEqual, .greater, .greaterOrEqual, .range,
    .rangeInclusive]

def ofSign? (s : String) : Option BinaryOp := all.find? fun op => op.sign = s

end BinaryOp

mutual

inductive Expr where
  | literal (l : Literal)
  | template (parts : List Expr)
  | variable_ (name : String) (known : Bool) (place : Position)
  | array (items : List Expr)
  | map (entries : List (String × Expr))
  | call (name : String) (args : List Expr) (place : Position)
  | unary (op : UnaryOp) (e : Expr) (place : Position)
  | binary (op : BinaryOp) (left right : Expr) (place : Position)
  /-- Whether both hold; the second is looked at only if the first holds. -/
  | and (left right : Expr) (leftPlace rightPlace : Position)
  /-- Whether one holds; the second is looked at only if the first does not hold. -/
  | or (left right : Expr) (leftPlace rightPlace : Position)
  /-- The first value, unless it is the unit. -/
  | otherwise (left right : Expr)
  | contained (value collection : Expr) (negated : Bool) (place : Position)
  | chain (root : Expr) (links : List Link)
  /-- A function without a name, with the variables around it that it shares. -/
  | lambda (routine : Routine) (captured : List (String × Position))
  /-- Statements; the value is that of the last one. -/
  | block (body : List Stmt)
  | cond (test : Expr) (place : Position) (yes no : List Stmt)
  | select (subject : Expr) (arms : List Arm)

inductive Link where
  | property (name : String) (place : Position)
  | index (e : Expr) (place : Position)
  | method (name : String) (args : List Expr) (place : Position)

inductive Arm where
  /-- The values for which it is chosen (all if there are none), a further test, and its body. -/
  | mk (values : List Expr) (guard_ : Option Expr) (place : Position) (body : List Stmt)

inductive Stmt where
  | expr (e : Expr)
  | define (name : String) (constant : Bool) (value : Expr)
  /-- A new value for a variable or a part of one, combined with the old value if there is an
  operator. -/
  | assign (target : Expr) (op : Option BinaryOp) (value : Expr) (place : Position)
  /-- A loop, with a test before each round if there is one. -/
  | loop (test : Option Expr) (body : List Stmt) (place : Position)
  /-- A loop with a test after each round; it goes on as long as the test has the given value. -/
  | loopAfter (body : List Stmt) (test : Expr) (goOn : Bool) (place : Position)
  /-- A loop over items, with a variable for the item and perhaps one for the round. -/
  | each (name : String) (counter : Option String) (source : Expr) (body : List Stmt)
      (place : Position)
  | leave (value : Option Expr)
  | next
  | give (value : Option Expr)
  | raise (value : Option Expr) (place : Position)
  /-- Goes on with a second block if the first fails, with a variable for the reason. -/
  | rescue (body : List Stmt) (name : Option String) (handler : List Stmt)

inductive Routine where
  | mk (name : String) (params : List String) (body : List Stmt)

end

structure Mention where
  name : String
  known : Bool
  place : Position

namespace Expr

instance : Inhabited Expr := ⟨.literal .unit⟩

/-- Whether the expression is a whole number that is written down. -/
def isWrittenInt : Expr → Bool
  | .literal (.int _) => true
  | _ => false

mutual

def isWrittenDown : Expr → Bool
  | .literal _ => true
  | .array items => areWrittenDown items
  | .map entries => entriesWrittenDown entries
  | .binary op left right _ =>
    (op == .range || op == .rangeInclusive) && left.isWrittenInt && right.isWrittenInt
  | _ => false

def areWrittenDown : List Expr → Bool
  | [] => true
  | e :: es => e.isWrittenDown && areWrittenDown es

def entriesWrittenDown : List (String × Expr) → Bool
  | [] => true
  | e :: es => e.2.isWrittenDown && entriesWrittenDown es

end

def mention? : Expr → Option Mention
  | .variable_ name known place => some ⟨name, known, place⟩
  | _ => none

/-- The variable whose value, or a part of it, the expression is. -/
def rootMention? : Expr → Option Mention
  | .chain root _ => root.mention?
  | e => e.mention?

end Expr

namespace Routine

instance : Inhabited Routine := ⟨.mk "" [] []⟩

def name : Routine → String
  | .mk name _ _ => name

def params : Routine → List String
  | .mk _ params _ => params

def body : Routine → List Stmt
  | .mk _ _ body => body

/-- Whether the function has the given name and number of parameters. -/
def answers (r : Routine) (name : String) (count : Nat) : Bool :=
  r.name == name && r.params.length == count

end Routine

/-- Functions that can be called by their names, each name and number of parameters once. -/
abbrev Library := List Routine

namespace Library

def find? (l : Library) (name : String) (count : Nat) : Option Routine :=
  List.find? (fun r => r.answers name count) l

def named? (l : Library) (name : String) : Option Routine := List.find? (fun r => r.name == name) l

/-- The functions of both libraries; of two that answer the same calls the one of the second
stays. -/
def merge (l more : Library) : Library :=
  (l.filter fun r => !more.any fun s => s.answers r.name r.params.length) ++ more

end Library

structure Tree where
  library : Library
  body : List Stmt

namespace Tree

def empty : Tree := ⟨[], []⟩

/-- Both scripts, the statements of the second behind those of the first. -/
def merge (t more : Tree) : Tree := ⟨t.library.merge more.library, t.body ++ more.body⟩

def functionsOnly (t : Tree) : Tree := { t with body := [] }

end Tree

end PackHost.Script
