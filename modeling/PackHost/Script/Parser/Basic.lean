import PackHost.Script.Lexer
import PackHost.Script.Tree

/-!
# What reading a script keeps

While a text is read, `Parse` keeps the tokens that are left, the names that are declared, so that
assignments to constants are refused, and the names that are used but not declared, so that
functions without a name know which variables around them they share. A refusal says why and where.
-/

namespace PackHost.Script

open Source (Position)

structure SyntaxFault where
  message : String
  place : Position

structure Reading where
  tokens : List Placed
  /-- The names that are declared here, the innermost first, and whether they are constant. -/
  declared : List (String × Bool)
  /-- The names that are used here, but not declared, in order. -/
  free : List (String × Position)
  library : Library

abbrev Parse (α : Type) := StateT Reading (Except SyntaxFault) α

structure Mode where
  inLoop : Bool
  top : Bool

namespace Mode

def inside (m : Mode) : Mode := { m with top := false }

def looping : Mode := ⟨true, false⟩

def function : Mode := ⟨false, false⟩

end Mode

namespace Parse

/-! ## Tokens -/

def peek : Parse Placed := do
  return (← get).tokens.headD ⟨.finish, .start⟩

/-- Leaves the next token behind, unless it is the end. -/
def skip : Parse Unit :=
  modify fun r =>
    match r.tokens with
    | _ :: t :: ts => { r with tokens := t :: ts }
    | _ => r

def refuseAt {α : Type} (place : Position) (message : String) : Parse α :=
  throw ⟨message, place⟩

/-- Refuses the text at the next token; something that is no token has its own reason. -/
def refuse {α : Type} (message : String) : Parse α := do
  let t ← peek
  match t.token with
  | .bad reason => refuseAt t.place reason
  | _ => refuseAt t.place message

def atSign (s : String) : Parse Bool := do
  match (← peek).token with
  | .sign t => return t == s
  | _ => return false

def atWord (s : String) : Parse Bool := do
  match (← peek).token with
  | .keyword t => return t == s
  | _ => return false

/-- Leaves the given sign behind, if it is next. -/
def accept (s : String) : Parse Bool := do
  if ← atSign s then
    skip
    return true
  return false

/-- Leaves the given word behind, if it is next. -/
def acceptWord (s : String) : Parse Bool := do
  if ← atWord s then
    skip
    return true
  return false

def missing {α : Type} (s why : String) : Parse α := refuse ("Expecting '" ++ s ++ "' " ++ why)

def expect (s why : String) : Parse Unit := do
  if ← accept s then return
  missing s why

def expectWord (s why : String) : Parse Unit := do
  if ← acceptWord s then return
  missing s why

def atEnd : Parse Bool := do
  match (← peek).token with
  | .finish => return true
  | _ => return false

def refuseReserved {α : Type} (s : String) (place : Position) : Parse α :=
  refuseAt place ("'" ++ s ++ "' is a reserved " ++
    if s.toList.all inName then "keyword" else "symbol")

def takeName (wanted : String) : Parse String := do
  match (← peek).token with
  | .name s =>
    skip
    return s
  | .reserved s =>
    if s.toList.all inName then refuse ("'" ++ s ++ "' is a reserved keyword") else refuse wanted
  | _ => refuse wanted

/-! ## Names -/

def declare (name : String) (constant : Bool) : Parse Unit :=
  modify fun r => { r with declared := (name, constant) :: r.declared }

def enclosed {α : Type} (p : Parse α) : Parse α := do
  let before := (← get).declared
  let a ← p
  modify fun r => { r with declared := before }
  return a

/-- Notes down that a name is used, and says whether it is declared here. -/
def use (name : String) (place : Position) : Parse Bool := do
  let r ← get
  let known := (r.declared.lookup name).isSome
  if !known && (r.library.named? name).isNone && (r.free.lookup name).isNone then
    set { r with free := r.free ++ [(name, place)] }
  return known

/-- Reads the body of a function with the given parameters; the answer has the names that are used
in it, but not declared. -/
def apart {α : Type} (params : List String) (p : Parse α) : Parse (α × List (String × Position)) := do
  let outer ← get
  set { outer with declared := params.reverse.map fun s => (s, false), free := [] }
  let a ← p
  let inner ← get
  set { inner with declared := outer.declared, free := outer.free }
  return (a, inner.free)

def addRoutine (r : Routine) (place : Position) : Parse Unit := do
  let l := (← get).library
  let count := r.params.length
  if (l.find? r.name count).isSome then
    refuseAt place ("Function " ++ r.name ++ " with " ++
      (if count = 0 then "no parameters" else if count = 1 then "1 parameter"
        else toString count ++ " parameters") ++ " already exists")
  modify fun s => { s with library := s.library ++ [r] }

end Parse

end PackHost.Script
