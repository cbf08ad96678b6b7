import PackHost.Number.Decimal
import PackHost.Script.Token
import PackHost.Text.Alphabet

/-!
# Splitting scripts into tokens

`tokens` splits a text. Comments and white space are passed over. The first thing that is no token
ends the list. While a block inside text between backticks is read, a stack tells how many braces
are open in each such block, so that the right brace leads back to the text.
-/

namespace PackHost.Script

open Source (Position)

/-- Something that was taken from the start of a text, with the rest. -/
abbrev Taken (α : Type) := α × List Char

/-! ## Names, blanks and comments -/

def startsName (c : Char) : Bool := c.isAlpha || c == '_'

def inName (c : Char) : Bool := c.isAlphanum || c == '_'

/-- What follows a comment that may contain comments; `depth` are open, besides the outermost. -/
def afterBlockComment : Nat → List Char → List Char
  | _, [] => []
  | 0, '*' :: '/' :: cs => cs
  | depth + 1, '*' :: '/' :: cs => afterBlockComment depth cs
  | depth, '/' :: '*' :: cs => afterBlockComment (depth + 1) cs
  | depth, _ :: cs => afterBlockComment depth cs

/-- What follows blanks and comments; `n` bounds their number. -/
def afterSpace : Nat → List Char → List Char
  | 0, cs => cs
  | n + 1, cs =>
    match cs with
    | '/' :: '/' :: rest => afterSpace n (rest.dropWhile (· ≠ '\n'))
    | '/' :: '*' :: rest => afterSpace n (afterBlockComment 0 rest)
    | c :: rest => if Text.isBlank c then afterSpace n rest else c :: rest
    | [] => []

/-! ## Text -/

def escapeDigits : Char → Option Nat
  | 'x' => some 2
  | 'u' => some 4
  | 'U' => some 8
  | _ => none

/-- The character that an escape with the given letter stands for. -/
def plainEscape : Char → Option Char
  | '\\' => some '\\'
  | 't' => some '\t'
  | 'n' => some '\n'
  | 'r' => some '\r'
  | '"' => some '"'
  | '\'' => some '\''
  | '`' => some '`'
  | _ => none

def codedChar (digits : List Char) : Option Char :=
  let code := digits.foldl (fun n c => 16 * n + Text.hexValue c) 0
  if digits.all Text.isHexDigit && code.isValidChar then some (Char.ofNat code) else none

def badEscape (cs : List Char) : String := "Invalid escape sequence: '\\" ++ String.ofList cs ++ "'"

/-- The text up to a closing quote, with the escapes resolved; the reason if it is not well
formed. -/
def quotedBody (quote : Char) : Nat → List Char → Except String (Taken (List Char))
  | 0, _ => .error "Open string is not terminated"
  | n + 1, cs =>
    match cs with
    | [] => .error "Open string is not terminated"
    | '\\' :: '\r' :: '\n' :: rest | '\\' :: '\n' :: rest =>
      quotedBody quote n (rest.dropWhile fun c => Text.isBlank c && c ≠ '\n')
    | '\\' :: c :: rest =>
      let put (d : Char) (rest : List Char) :=
        (quotedBody quote n rest).map fun r => (d :: r.1, r.2)
      match plainEscape c, escapeDigits c with
      | some d, _ => put d rest
      | none, some k =>
        match codedChar (rest.take k) with
        | some d => if k ≤ rest.length then put d (rest.drop k) else .error (badEscape (c :: rest))
        | none => .error (badEscape (c :: rest.take k))
      | none, none => .error (badEscape [c])
    | c :: rest =>
      if c = quote then .ok ([], rest)
      else if c = '\n' then .error "Open string is not terminated"
      else (quotedBody quote n rest).map fun r => (c :: r.1, r.2)

/-- A part of text between backticks, up to its end or to a block, and whether a block follows. -/
def chunkBody : List Char → Except String (Taken (List Char × Bool))
  | [] => .error "Open string is not terminated"
  | '`' :: '`' :: rest => (chunkBody rest).map fun r => (('`' :: r.1.1, r.1.2), r.2)
  | '`' :: rest => .ok (([], false), rest)
  | '$' :: '\x7b' :: rest => .ok (([], true), rest)
  | c :: rest => (chunkBody rest).map fun r => ((c :: r.1.1, r.1.2), r.2)

/-! ## Numbers -/

def int64? (n : Int) : Option Int64 :=
  if Int64.minValue.toInt ≤ n ∧ n ≤ Int64.maxValue.toInt then some (Int64.ofInt n) else none

def digitsOf (p : Char → Bool) (cs : List Char) : Taken (List Char) :=
  ((cs.takeWhile fun c => p c || c == '_').filter (· ≠ '_'),
    cs.dropWhile fun c => p c || c == '_')

def baseOf : Char → Option Nat
  | 'x' | 'X' => some 16
  | 'o' | 'O' => some 8
  | 'b' | 'B' => some 2
  | _ => none

/-- The power of ten behind the letter e, if there is one. -/
def exponentOf : List Char → Option (Taken Int)
  | e :: '-' :: c :: rest =>
    if (e == 'e' || e == 'E') && c.isDigit then
      let d := digitsOf Char.isDigit (c :: rest)
      some (-(Decimal.ofDigits d.1 : Int), d.2)
    else none
  | e :: '+' :: c :: rest =>
    if (e == 'e' || e == 'E') && c.isDigit then
      let d := digitsOf Char.isDigit (c :: rest)
      some ((Decimal.ofDigits d.1 : Int), d.2)
    else none
  | e :: c :: rest =>
    if (e == 'e' || e == 'E') && c.isDigit then
      let d := digitsOf Char.isDigit (c :: rest)
      some ((Decimal.ofDigits d.1 : Int), d.2)
    else none
  | _ => none

/-- The fraction behind a point, if the point belongs to the number. -/
def fractionOf : List Char → Option (Taken (List Char))
  | '.' :: c :: rest =>
    if c.isDigit then some (digitsOf Char.isDigit (c :: rest))
    else if c == '.' || startsName c then none
    else some ([], c :: rest)
  | ['.'] => some ([], [])
  | _ => none

def decimalNumber (negative : Bool) (cs : List Char) : Taken Token :=
  let whole := digitsOf Char.isDigit cs
  let fraction := fractionOf whole.2
  let rest := (fraction.map Prod.snd).getD whole.2
  let places := (fraction.map Prod.fst).getD []
  let power := exponentOf rest
  let rest := (power.map Prod.snd).getD rest
  let n : Int := Decimal.ofDigits whole.1
  let value := Decimal.toFloat
    ⟨Decimal.ofDigits (whole.1 ++ places), (power.map Prod.fst).getD 0 - (places.length : Nat)⟩
  let asFloat : Token := .float (if negative then -value else value)
  if fraction.isSome || power.isSome then (asFloat, rest)
  else
    match int64? (if negative then -n else n) with
    | some i => (.int i, rest)
    | none => (asFloat, rest)

def basedNumber (negative : Bool) (mark : Char) (base : Nat) (cs : List Char) : Taken Token :=
  let digits := digitsOf (fun c => Text.isHexDigit c && Text.hexValue c < base) cs
  let n : Int := (digits.1.foldl (fun n c => base * n + Text.hexValue c) 0 : Nat)
  match if digits.1 = [] then none else int64? (if negative then -n else n) with
  | some i => (.int i, digits.2)
  | none =>
    (.bad ("Invalid number: '0" ++ String.ofList (mark :: digits.1) ++ "'"), digits.2)

def number (negative : Bool) (cs : List Char) : Taken Token :=
  match cs with
  | '0' :: c :: rest =>
    match baseOf c with
    | some base => basedNumber negative c base rest
    | none => decimalNumber negative cs
  | _ => decimalNumber negative cs

/-! ## Signs and words -/

def wordToken (s : String) : Token :=
  if keywords.contains s then .keyword s
  else if isReserved s then .reserved s
  else .name s

/-- A word. A name must have a character other than the underscore, unless it is one underscore. -/
def word (cs : List Char) : Taken Token :=
  let w := cs.takeWhile inName
  let s := String.ofList w
  let token : Token :=
    if w = ['_'] then .sign "_"
    else if w.all (· == '_') then .bad ("Variable name is not proper: '" ++ s ++ "'")
    else wordToken s
  (token, cs.dropWhile inName)

def signToken (cs : List Char) : Taken Token :=
  match signs.find? fun s => s.toList.isPrefixOf cs with
  | none => (.bad ("Unexpected '" ++ String.ofList (cs.take 1) ++ "'"), cs.drop 1)
  | some s =>
    let rest := cs.drop s.toList.length
    match foreignSigns.lookup s with
    | some reason => (.bad reason, rest)
    | none => (if idleSigns.contains s then .reserved s else .sign s, rest)

/-- The token, if it is not switched off. Words that are kept are refused, others lose their
meaning. -/
def switchOff (off : List String) : Token → Token
  | .reserved s =>
    if off.contains s then
      .bad ("reserved " ++ (if s.toList.all inName then "keyword" else "symbol") ++ " '" ++ s ++
        "' is disabled")
    else .reserved s
  | .keyword s => if off.contains s then .reserved s else .keyword s
  | .sign s => if off.contains s then .reserved s else .sign s
  | t => t

/-! ## Whole texts -/

/-- The numbers of open braces in the blocks that are read inside text between backticks. -/
abbrev Depths := List Nat

def Depths.after (ds : Depths) : Token → Depths
  | .sign "\x7b" | .sign "#\x7b" =>
    match ds with
    | d :: ds => (d + 1) :: ds
    | [] => []
  | .sign "\x7d" =>
    match ds with
    | d :: ds => (d - 1) :: ds
    | [] => []
  | _ => ds

def charToken (cs : List Char) : Taken Token :=
  match quotedBody '\'' (cs.length + 1) cs with
  | .error reason => (.bad reason, cs)
  | .ok ([c], rest) => (.char c, rest)
  | .ok (body, rest) => (.bad ("Invalid character: '" ++ String.ofList body ++ "'"), rest)

def textToken (cs : List Char) : Taken Token :=
  match quotedBody '"' (cs.length + 1) cs with
  | .error reason => (.bad reason, cs)
  | .ok (body, rest) => (.text (String.ofList body), rest)

/-- A part of text between backticks, with the open braces after it. -/
def chunkToken (ds : Depths) (cs : List Char) : Taken (Token × Depths) :=
  match chunkBody cs with
  | .error reason => ((.bad reason, ds), cs)
  | .ok ((body, true), rest) => ((.chunk (String.ofList body), 0 :: ds), rest)
  | .ok ((body, false), rest) => ((.text (String.ofList body), ds), rest)

/-- Text between backticks without the end of line at its start. -/
def afterOpening : List Char → List Char
  | '\r' :: '\n' :: rest => rest
  | '\n' :: rest => rest
  | cs => cs

/-- The next token, where `operand` says whether an operand stands before it. The text starts with
no blank. -/
def nextToken (off : List String) (operand : Bool) (ds : Depths) (cs : List Char) :
    Taken (Token × Depths) :=
  let plain (r : Taken Token) : Taken (Token × Depths) :=
    let t := switchOff off r.1
    ((t, ds.after t), r.2)
  match cs with
  | [] => ((.finish, ds), [])
  | '"' :: rest => plain (textToken rest)
  | '\'' :: rest => plain (charToken rest)
  | '`' :: rest => chunkToken ds (afterOpening rest)
  | '-' :: d :: rest =>
    if d.isDigit && !operand then plain (number true (d :: rest)) else plain (signToken cs)
  | c :: _ =>
    if c.isDigit then plain (number false cs)
    else if startsName c then plain (word cs)
    else plain (signToken cs)

/-- The place after the part of a text that is gone from the rest. -/
def placeAfter (p : Position) (cs rest : List Char) : Position :=
  p.advance (cs.take (cs.length - rest.length))

/-- The tokens of a text, at most `n` of them. -/
def tokensFrom (off : List String) : Nat → Bool → Depths → Position → List Char → List Placed
  | 0, _, _, p, _ => [⟨.finish, p⟩]
  | n + 1, operand, ds, p, cs =>
    let start := afterSpace cs.length cs
    let p := placeAfter p cs start
    let r := nextToken off operand ds start
    let p' := placeAfter p start r.2
    match r.1.1, r.1.2 with
    | .bad reason, _ => [⟨.bad reason, p⟩]
    | .finish, _ => [⟨.finish, p⟩]
    | .sign "\x7d", 0 :: outer =>
      if ds.head? = some 0 then
        let tail := chunkToken outer r.2
        let p'' := placeAfter p' r.2 tail.2
        match tail.1.1 with
        | .bad reason => [⟨.sign "\x7d", p⟩, ⟨.bad reason, p'⟩]
        | t =>
          ⟨.sign "\x7d", p⟩ :: ⟨t, p'⟩ :: tokensFrom off n t.endsOperand tail.1.2 p'' tail.2
      else ⟨.sign "\x7d", p⟩ :: tokensFrom off n true (0 :: outer) p' r.2
    | t, ds => ⟨t, p⟩ :: tokensFrom off n t.endsOperand ds p' r.2

/-- The tokens of a text, up to its end or to the first thing that is no token; `off` are the words
and signs that are switched off. -/
def tokens (off : List String) (text : String) : List Placed :=
  let cs := text.toList
  tokensFrom off (cs.length + 2) false [] .start cs

end PackHost.Script
