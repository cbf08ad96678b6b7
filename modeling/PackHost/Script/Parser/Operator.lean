import PackHost.Script.Parser.Basic

/-!
# Operators of scripts

Operators bind as tightly as `precedence` says; `**` binds to the right, all others to the left. The
functions here build the tree of an operation, and say what can stand on the left of an assignment.
-/

namespace PackHost.Script

open Source (Position)

namespace Parse

/-- How tightly a sign binds; zero if it is no operator. -/
def precedence : Token → Nat
  | .sign s =>
    if s = "||" ∨ s = "|" ∨ s = "^" then 30
    else if s = "&&" ∨ s = "&" then 60
    else if s = "==" ∨ s = "!=" then 90
    else if s = "<" ∨ s = "<=" ∨ s = ">" ∨ s = ">=" then 130
    else if s = "??" then 135
    else if s = ".." ∨ s = "..=" then 140
    else if s = "+" ∨ s = "-" then 150
    else if s = "*" ∨ s = "/" ∨ s = "%" then 180
    else if s = "**" then 190
    else if s = "<<" ∨ s = ">>" then 210
    else 0
  | .keyword s => if s = "in" then 110 else 0
  | _ => 0

def bindsRight : Token → Bool
  | .sign s => s == "**"
  | _ => false

/-- The operator that an assignment combines with, if the sign is an assignment. -/
def assignment? : Token → Option (Option BinaryOp)
  | .sign "=" => some none
  | .sign s =>
    match s.toList.reverse with
    | '=' :: rest =>
      if s = "==" ∨ s = "!=" ∨ s = "<=" ∨ s = ">=" ∨ s = "..=" then none
      else (BinaryOp.ofSign? (String.ofList rest.reverse)).map some
    | _ => none
  | _ => none

def placeOf (fallback : Position) : Expr → Position
  | .variable_ _ _ p => p
  | .call _ _ p => p
  | .chain (.variable_ _ _ p) _ => p
  | .chain (.call _ _ p) _ => p
  | _ => fallback

/-- Whether both hold, where a truth value that is written down is dropped if it decides nothing. -/
def both (left right : Expr) (leftPlace rightPlace : Position) : Expr :=
  match left, right with
  | .literal (.bool true), e => e
  | .literal (.bool false), _ => left
  | e, .literal (.bool true) => e
  | _, _ => .and left right leftPlace rightPlace

/-- Whether one holds, where a truth value that is written down is dropped if it decides nothing. -/
def either (left right : Expr) (leftPlace rightPlace : Position) : Expr :=
  match left, right with
  | .literal (.bool false), e => e
  | .literal (.bool true), _ => left
  | e, .literal (.bool false) => e
  | _, _ => .or left right leftPlace rightPlace

def join (sign : Token) (left right : Expr) (place leftPlace rightPlace : Position) : Expr :=
  match sign with
  | .sign "&&" => both left right (placeOf leftPlace left) (placeOf rightPlace right)
  | .sign "||" => either left right (placeOf leftPlace left) (placeOf rightPlace right)
  | .sign "??" => .otherwise left right
  | .keyword _ => .contained left right false place
  | .sign s =>
    match BinaryOp.ofSign? s with
    | some op => .binary op left right place
    | none => left
  | _ => left

/-- An operator on one value; numbers that are written down are negated at once. -/
def negate (place : Position) : Expr → Expr
  | .literal (.int i) =>
    if i = Int64.minValue then .literal (.float (-(Float.ofInt i.toInt))) else .literal (.int (-i))
  | .literal (.float x) => .literal (.float (-x))
  | e => .unary .negate e place

def affirm (place : Position) : Expr → Expr
  | .literal (.int i) => .literal (.int i)
  | .literal (.float x) => .literal (.float x)
  | e => .unary .keep e place

/-- Whether a value can be assigned to the part at the end of the links. -/
def endsInPart (links : List Link) : Bool :=
  match links.getLast? with
  | some (.property ..) => true
  | some (.index ..) => true
  | _ => false

/-- Refuses a target that nothing can be assigned to. -/
def checkTarget (target : Expr) (place : Position) : Parse Unit := do
  match target with
  | .variable_ name known p =>
    if known && ((← get).declared.lookup name).getD false then
      refuseAt p ("Cannot assign to constant " ++ name)
  | .chain (.variable_ ..) links =>
    if !endsInPart links then refuseAt place "Expression cannot be assigned to"
  | .literal _ => refuseAt place "Cannot assign to a constant value"
  | _ => refuseAt place "Expression cannot be assigned to"

/-- Whether the next tokens say that something is not contained. -/
def atNotIn : Parse Bool := do
  match (← get).tokens with
  | ⟨.sign "!", _⟩ :: ⟨.keyword "in", _⟩ :: _ => return true
  | _ => return false

end Parse

end PackHost.Script
