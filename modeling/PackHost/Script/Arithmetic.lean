import PackHost.Script.Fault

/-!
# Operators

What operators do with two values. Whole numbers are computed exactly, and a result that does not
fit into 64 bits is a fault; a whole number beside a fraction counts as a fraction; a text takes the
text of whatever is added to it. `none` means that the operator is not defined for the values.
-/

namespace PackHost.Script

/-- What an operator gives: a value, or the reason why there is none. -/
abbrev Result := Except Cause Datum

/-- The integer, or the fault of an operator that exceeds 64 bits. -/
def fit (n : Int) (what sign : String) (a b : Int64) : Result :=
  if Int64.minValue.toInt ≤ n ∧ n ≤ Int64.maxValue.toInt then .ok (.int (Int64.ofInt n))
  else .error (.arithmetic
    (what ++ ": " ++ toString a.toInt ++ " " ++ sign ++ " " ++ toString b.toInt))

/-- The fault of an operator that is not defined for two numbers. -/
def undefinedFor (what sign : String) (a b : Int64) : Result :=
  .error (.arithmetic
    (what ++ ": " ++ toString a.toInt ++ " " ++ sign ++ " " ++ toString b.toInt))

def intPower (a b : Int64) : Result :=
  let n := b.toInt
  if n < 0 then undefinedFor "Integer raised to a negative power" "**" a b
  else if n > 4294967295 then undefinedFor "Integer raised to too large an index" "**" a b
  else
    let base := a.toInt
    -- beyond 64 factors a power other than of -1, 0 and 1 does not fit
    if base.natAbs ≤ 1 then
      .ok (.int (if n = 0 ∨ base = 1 then 1 else if base = 0 then 0
        else if n % 2 = 0 then 1 else -1))
    else if n > 64 then undefinedFor "Exponential overflow" "**" a b
    else fit (base.pow n.toNat) "Exponential overflow" "**" a b

def intOp (op : BinaryOp) (a b : Int64) : Option Result :=
  let x := a.toInt
  let y := b.toInt
  match op with
  | .add => some (fit (x + y) "Addition overflow" "+" a b)
  | .subtract => some (fit (x - y) "Subtraction overflow" "-" a b)
  | .multiply => some (fit (x * y) "Multiplication overflow" "*" a b)
  | .divide =>
    some (if y = 0 then undefinedFor "Division by zero" "/" a b
      else fit (Int.tdiv x y) "Division overflow" "/" a b)
  | .modulo =>
    some (if y = 0 ∨ (y = -1 ∧ a = Int64.minValue) then
        undefinedFor "Modulo division by zero or overflow" "%" a b
      else .ok (.int (Int64.ofInt (Int.tmod x y))))
  | .power => some (intPower a b)
  | .shiftLeft =>
    some (.ok (.int (if y < 0 then (if y ≤ -64 then (if x < 0 then -1 else 0)
        else Int64.ofInt (x / Int.pow 2 (-y).toNat))
      else if 64 ≤ y then 0 else Int64.ofInt (x * Int.pow 2 y.toNat))))
  | .shiftRight =>
    some (.ok (.int (if y < 0 then (if y ≤ -64 then 0 else Int64.ofInt (x * Int.pow 2 (-y).toNat))
      else if 64 ≤ y then (if x < 0 then -1 else 0) else Int64.ofInt (x / Int.pow 2 y.toNat))))
  | .bitAnd => some (.ok (.int (a &&& b)))
  | .bitOr => some (.ok (.int (a ||| b)))
  | .bitXor => some (.ok (.int (a ^^^ b)))
  | .less => some (.ok (.bool (x < y)))
  | .lessOrEqual => some (.ok (.bool (x ≤ y)))
  | .greater => some (.ok (.bool (x > y)))
  | .greaterOrEqual => some (.ok (.bool (x ≥ y)))
  | .range => some (.ok (.range false a b))
  | .rangeInclusive => some (.ok (.range true a b))
  | .equal | .unequal => none

def floatRemainder (a b : Float) : Float :=
  let p := Decimal.parts a
  let q := Decimal.parts b
  if a.isNaN || a.isInf || b.isNaN || q.significand = 0 then 0.0 / 0.0
  else if b.isInf then a
  else
    -- both numbers as whole multiples of one power of two
    let low := min p.exponent q.exponent
    let x := p.significand * Nat.pow 2 (p.exponent - low).toNat
    let y := q.significand * Nat.pow 2 (q.exponent - low).toNat
    let size := Float.scaleB (Float.ofNat (x % y)) low
    if p.negative then -size else size

def floatOp (op : BinaryOp) (a b : Float) : Option Result :=
  match op with
  | .add => some (.ok (.float (a + b)))
  | .subtract => some (.ok (.float (a - b)))
  | .multiply => some (.ok (.float (a * b)))
  | .divide => some (.ok (.float (a / b)))
  | .modulo => some (.ok (.float (floatRemainder a b)))
  | .power => some (.ok (.float (a ^ b)))
  | .less => some (.ok (.bool (a < b)))
  | .lessOrEqual => some (.ok (.bool (a ≤ b)))
  | .greater => some (.ok (.bool (a > b)))
  | .greaterOrEqual => some (.ok (.bool (a ≥ b)))
  | _ => none

def orderOp (op : BinaryOp) (less equal : Bool) : Option Result :=
  match op with
  | .less => some (.ok (.bool less))
  | .lessOrEqual => some (.ok (.bool (less || equal)))
  | .greater => some (.ok (.bool (!less && !equal)))
  | .greaterOrEqual => some (.ok (.bool (!less)))
  | _ => none

def boolOp (op : BinaryOp) (a b : Bool) : Option Result :=
  match op with
  | .bitAnd => some (.ok (.bool (a && b)))
  | .bitOr => some (.ok (.bool (a || b)))
  | .bitXor => some (.ok (.bool (a != b)))
  | _ => orderOp op (!a && b) (a == b)

def isOrder : BinaryOp → Bool
  | .less | .lessOrEqual | .greater | .greaterOrEqual => true
  | _ => false

/-- Whether two values are of one type; whole numbers and fractions are of two. -/
def sameType (a b : Datum) : Bool := a.typeName == b.typeName

/-- Two values added where at least one of them is text, an array or a map. -/
def joined : Datum → Datum → Option Result
  | .text s, d => some (.ok (.text (s ++ d.shown)))
  | d, .text s => some (.ok (.text (d.shown ++ s)))
  | .char c, .char d => some (.ok (.text (String.ofList [c, d])))
  | .array a, .array b => some (.ok (.array (a ++ b)))
  | .map a, .map b => some (.ok (.map (b.foldl (fun t e => Table.insert e.1 e.2 t) a)))
  | _, _ => none

def without (s part : String) : String :=
  if part = "" then s else String.join (s.splitOn part)

def BinaryOp.apply (op : BinaryOp) (a b : Datum) : Option Result :=
  match op with
  | .equal => some (.ok (.bool (a.same b)))
  | .unequal => some (.ok (.bool (!a.same b)))
  | _ =>
    match a, b with
    | .int x, .int y => intOp op x y
    | .float x, .float y => floatOp op x y
    | .int x, .float y => floatOp op (Float.ofInt x.toInt) y
    | .float x, .int y => floatOp op x (Float.ofInt y.toInt)
    | .bool x, .bool y => boolOp op x y
    | _, _ =>
      if op = .add then joined a b
      else if isOrder op then
        match a, b with
        | .char x, .char y => orderOp op (x < y) (x == y)
        | .text x, .text y => orderOp op (x < y) (x == y)
        | .char x, .text y => orderOp op (String.ofList [x] < y) (String.ofList [x] == y)
        | .text x, .char y => orderOp op (x < String.ofList [y]) (x == String.ofList [y])
        | .unit, .unit => some (.ok (.bool false))
        | _, _ => if sameType a b then none else some (.ok (.bool false))
      else
        match op, a, b with
        | .subtract, .text s, .text t => some (.ok (.text (without s t)))
        | .subtract, .text s, .char c => some (.ok (.text (without s (String.ofList [c]))))
        | _, _, _ => none

def UnaryOp.apply (op : UnaryOp) (d : Datum) : Option Result :=
  match op, d with
  | .negate, .int i =>
    some (if i = Int64.minValue then .error (.arithmetic "integer overflow") else .ok (.int (-i)))
  | .negate, .float x => some (.ok (.float (-x)))
  | .keep, .int i => some (.ok (.int i))
  | .keep, .float x => some (.ok (.float x))
  | .not, .bool b => some (.ok (.bool !b))
  | _, _ => none

/-- What an operator gives for two values where the result takes the place of the first one. An
array takes a further value as its last item. -/
def BinaryOp.combine (op : BinaryOp) (a b : Datum) : Option Result :=
  match op, a, b with
  | .add, .array items, .array more => some (.ok (.array (items ++ more)))
  | .add, .array items, d => some (.ok (.array (items ++ [d])))
  | _, _, _ => op.apply a b

/-- Whether a collection contains a value; `none` if it is no collection of such values. -/
def contains? : Datum → Datum → Option Bool
  | .array items, d => some (items.any fun i => i.same d)
  | .map entries, .text name => some (Table.get? name entries).isSome
  | .map entries, .char c => some (Table.get? (String.ofList [c]) entries).isSome
  | .text s, .text part => some ((s.splitOn part).length > 1 || part = "")
  | .text s, .char c => some (s.toList.contains c)
  | .range inclusive low high, .int i => some (low ≤ i && (if inclusive then i ≤ high else i < high))
  | _, _ => none

end PackHost.Script
