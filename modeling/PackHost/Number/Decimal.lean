/-!
# Decimal text of binary fractions

The shortest decimal that reads back as a given float, and the ways in which it is written. A
positive float is `m * 2 ^ q`; every real in an interval around it rounds to it, the ends included
when `m` is even. On each decimal grid, from coarse to fine, the two neighbours of the float are
tested; the first grid with a hit wins, and of two hits the nearer one, the upper at a tie.
-/

namespace PackHost

/-- The number `coefficient * 10 ^ exponent`. -/
structure Decimal where
  coefficient : Nat
  exponent : Int
deriving DecidableEq, Repr

namespace Decimal

/-- The two neighbours of `num / den` on the grid of `10 ^ k`, with the grid's unit: `10 ^ k` is
`unit / den'` for the common denominator of the result, which is `(scaled numerator, unit)`. -/
def onGrid (num den : Nat) (k : Int) : Nat × Nat :=
  if 0 ≤ k then (num, den * Nat.pow 10 k.toNat) else (num * Nat.pow 10 (-k).toNat, den)

/-- The point of the grid of `10 ^ k` that lies in the interval from `low / den` to `high / den` and
is nearest to `num / den`, if there is one. -/
def nearestOnGrid (low num high den : Nat) (closed : Bool) (k : Int) : Option Nat :=
  let scale := if 0 ≤ k then 1 else Nat.pow 10 (-k).toNat
  let unit := if 0 ≤ k then den * Nat.pow 10 k.toNat else den
  let below := num * scale / unit
  let above := below + 1
  let inside (n : Nat) : Bool :=
    let x := n * unit
    if closed then low * scale ≤ x && x ≤ high * scale else low * scale < x && x < high * scale
  let downGap := num * scale - below * unit
  let upGap := above * unit - num * scale
  let belowFits := inside below && 0 < below
  if inside above && (!belowFits || upGap ≤ downGap) then some above
  else if belowFits then some below
  else none

/-- Tries `count` grids, each ten times finer than the one before. -/
def search (low num high den : Nat) (closed : Bool) : Nat → Int → Option Decimal
  | 0, _ => none
  | count + 1, k =>
    match nearestOnGrid low num high den closed k with
    | some n => some ⟨n, k⟩
    | none => search low num high den closed count (k - 1)

def strip (fuel : Nat) (d : Decimal) : Decimal :=
  match fuel with
  | 0 => d
  | fuel + 1 =>
    if d.coefficient ≠ 0 ∧ d.coefficient % 10 = 0 then
      strip fuel ⟨d.coefficient / 10, d.exponent + 1⟩
    else d

/-- The shortest decimal that rounds to `m * 2 ^ q`, where the next smaller float is at half the
usual distance if `atPower`. -/
def shortest (m : Nat) (q : Int) (atPower : Bool) : Decimal :=
  let e := q - 2
  let den := if 0 ≤ e then 1 else Nat.pow 2 (-e).toNat
  let factor := if 0 ≤ e then Nat.pow 2 e.toNat else 1
  let num := 4 * m * factor
  let low := (4 * m - (if atPower then 1 else 2)) * factor
  let high := (4 * m + 2) * factor
  -- ten to the start is above the number: 2 ^ 1024 is below 10 ^ 309
  let start : Int := (((toString (num / den)).length : Nat) : Int)
  let start := if num / den = 0 then -(((toString (den / num)).length : Nat) : Int) + 1 else start
  match search low num high den (m % 2 == 0) 25 start with
  | some d => d.strip 20
  | none => ⟨m, 0⟩

/-- The float read as sign, significand and binary exponent. -/
structure Parts where
  negative : Bool
  significand : Nat
  exponent : Int
  atPower : Bool

def parts (x : Float) : Parts :=
  let bits : Nat := x.toBits.toNat
  let fraction : Nat := bits % Nat.pow 2 52
  let biased : Nat := bits / Nat.pow 2 52 % Nat.pow 2 11
  { negative := bits / Nat.pow 2 63 == 1
    significand := if biased = 0 then fraction else fraction + Nat.pow 2 52
    exponent := (if biased = 0 then 1 else (biased : Int)) - 1075
    atPower := fraction == 0 && 1 < biased }

/-- The shortest decimal of the absolute value of a finite float. -/
def ofFloat (x : Float) : Decimal :=
  let p := parts x
  if p.significand = 0 then ⟨0, 0⟩ else shortest p.significand p.exponent p.atPower

def magnitude (d : Decimal) : Int := ((toString d.coefficient).length : Nat) + d.exponent

def positional (d : Decimal) : String :=
  let digits := (toString d.coefficient).toList
  if d.coefficient = 0 then "0"
  else if 0 ≤ d.exponent then
    String.ofList (digits ++ List.replicate d.exponent.toNat '0')
  else
    let places := (-d.exponent).toNat
    if places < digits.length then
      String.ofList (digits.take (digits.length - places) ++ '.' ::
        digits.drop (digits.length - places))
    else String.ofList ('0' :: '.' :: List.replicate (places - digits.length) '0' ++ digits)

/-- One digit before the point, and the power of ten after the letter e. -/
def scientific (d : Decimal) : String :=
  let digits := (toString d.coefficient).toList
  let power := if d.coefficient = 0 then "0" else toString (d.magnitude - 1)
  match digits with
  | [] => ""
  | [c] => String.ofList [c] ++ "e" ++ power
  | c :: cs => String.ofList (c :: '.' :: cs) ++ "e" ++ power

/-- The float nearest to the number. Numbers beyond the range of floats are told apart before any
power of ten is computed. -/
def toFloat (d : Decimal) : Float :=
  if d.coefficient = 0 then 0.0
  else if 400 < d.magnitude then 1.0 / 0.0
  else if d.magnitude < -400 then 0.0
  else if d.exponent < 0 then Float.ofScientific d.coefficient true (-d.exponent).toNat
  else Float.ofScientific d.coefficient false d.exponent.toNat

def ofDigits (cs : List Char) : Nat := cs.foldl (fun n c => 10 * n + (c.toNat - '0'.toNat)) 0

end Decimal

/-- The text of a float around the text of its absolute value; `nan` is neither, and has no sign. -/
def floatText (infinite : String) (x : Float) (body : Decimal → String) : String :=
  if x.isNaN then "NaN"
  else
    let sign := if (Decimal.parts x).negative then "-" else ""
    if x.isInf then sign ++ infinite else sign ++ body (Decimal.ofFloat x)

/-- The shortest digits that read back, all in place: 1, 0.1, 100000000000000000000. -/
def plainFloatText (x : Float) : String := floatText "inf" x Decimal.positional

def hasPoint (s : String) : Bool := s.toList.contains '.'

/-- The text, with a point and a zero added if it has no point. -/
def withPoint (s : String) : String := if hasPoint s then s else s ++ ".0"

/-- The shortest digits that read back, always with a point, and with an exponent below `1e-5` and
from `1e16` on. -/
def debugFloatText (x : Float) : String :=
  floatText "inf" x fun d =>
    if d.coefficient = 0 || (-4 < d.magnitude && d.magnitude ≤ 16) then withPoint d.positional
    else d.scientific

end PackHost
