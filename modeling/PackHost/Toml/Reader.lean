import PackHost.Number.Decimal
import PackHost.Text.Alphabet
import PackHost.Text.Reader
import PackHost.Toml.Draft

/-!
# Reading configuration files

The text form of tables: one key with its value on a line, headers in brackets, comments from `#` to
the end of the line. `read` gives the table that a whole text stands for, or none if the text is not
well formed. Arrays and tables within values may be nested up to a limit.
-/

namespace PackHost.Toml

open Text (Reader)
open Text.Reader (char only word span spanSome next? atEnd many separated)

/-! ## Blanks, comments and ends of lines -/

def isBlank (c : Char) : Bool := c == ' ' || c == '\t'

/-- Whether the character may stand in a comment or in text that is taken as it is. -/
def isPrintable (c : Char) : Bool := c == '\t' || (32 ≤ c.toNat && c.toNat ≠ 127)

def blanks : Reader Unit := do
  let _ ← span isBlank

def newline : Reader Unit := word ['\n'] <|> word ['\r', '\n']

def comment : Reader Unit := do
  only '#'
  let _ ← span isPrintable

def lineEnd : Reader Unit := do
  blanks
  let _ ← optional comment
  newline <|> atEnd

def space : Reader Unit := do
  let _ ← many ((do let _ ← char isBlank) <|> newline <|> (do comment; newline))

/-! ## Text -/

/-- The character with the code that `n` hexadecimal digits give. -/
def coded (n : Nat) : Reader Char := do
  let digits ← (List.range n).mapM fun _ => char Text.isHexDigit
  let code := digits.foldl (fun k c => 16 * k + Text.hexValue c) 0
  if code.isValidChar then return Char.ofNat code else failure

def escape : Reader Char := do
  only '\\'
  let c ← char fun _ => true
  match c with
  | 'b' => return Char.ofNat 8
  | 't' => return '\t'
  | 'n' => return '\n'
  | 'f' => return Char.ofNat 12
  | 'r' => return '\r'
  | '"' => return '"'
  | '\\' => return '\\'
  | 'u' => coded 4
  | 'U' => coded 8
  | _ => failure

def quoted : Reader String := do
  only '"'
  let cs ← many (char (fun c => isPrintable c && c ≠ '"' && c ≠ '\\') <|> escape)
  only '"'
  return String.ofList cs

def literal : Reader String := do
  only '\''
  let cs ← span fun c => isPrintable c && c ≠ '\''
  only '\''
  return String.ofList cs

/-- A backslash at the end of a line, with the blanks and ends of lines after it. -/
def continuation : Reader (List Char) := do
  only '\\'
  blanks
  newline
  let _ ← many ((do let _ ← char isBlank) <|> newline)
  return []

/-- One or two quotes that do not end a text between triple quotes. -/
def innerQuotes (quote : Char) : Reader (List Char) := fun s =>
  match s.takeWhile (· == quote), s.dropWhile (· == quote) with
  | [q], c :: rest => some ([q], c :: rest)
  | [q, r], c :: rest => some ([q, r], c :: rest)
  | _, _ => none

/-- The quotes that end a text between triple quotes; up to two more belong to the text. -/
def closingQuotes (quote : Char) : Reader (List Char) := fun s =>
  let quotes := (s.take 5).takeWhile (· == quote)
  if quotes.length < 3 then none
  else some (quotes.drop 3, s.drop quotes.length)

/-- Text between triple quotes, whose parts `part` reads. -/
def multiline (quote : Char) (part : Reader (List Char)) : Reader String := do
  word [quote, quote, quote]
  let _ ← optional newline
  let parts ← many (part <|> (do newline; return ['\n']) <|> innerQuotes quote)
  let last ← closingQuotes quote
  return String.ofList (parts.flatten ++ last)

def text : Reader String := fun s =>
  match s with
  | '"' :: '"' :: '"' :: _ =>
    multiline '"' (spanSome (fun c => isPrintable c && c ≠ '"' && c ≠ '\\') <|> continuation <|>
      (do return [← escape])) s
  | '"' :: _ => quoted s
  | '\'' :: '\'' :: '\'' :: _ =>
    multiline '\'' (spanSome fun c => isPrintable c && c ≠ '\'') s
  | _ => literal s

/-! ## Numbers -/

def digitRun (p : Char → Bool) : Reader (List Char) := do
  let c ← char p
  let more ← many (char p <|> (do only '_'; char p))
  return c :: more

def sign : Reader Bool := do
  match ← optional (char fun c => c == '+' || c == '-') with
  | some c => return c == '-'
  | none => return false

/-- The digits of a decimal number, which starts with a zero only if it is zero. -/
def wholeDigits : Reader (List Char) := do
  match ← next? with
  | some '0' =>
    only '0'
    return ['0']
  | _ => digitRun Char.isDigit

def fitting (n : Int) : Reader Value :=
  if Value.least ≤ n ∧ n ≤ Value.greatest then return .integer n else failure

def based (mark : Char) (base : Nat) : Reader Value := do
  word ['0', mark]
  let digits ← digitRun fun c => Text.isHexDigit c && Text.hexValue c < base
  fitting (digits.foldl (fun n c => base * n + Text.hexValue c) 0 : Nat)

def decimal : Reader Value := do
  let negative ← sign
  let n := Decimal.ofDigits (← wholeDigits)
  fitting (if negative then -(n : Int) else n)

def power : Reader Int := do
  let _ ← char fun c => c == 'e' || c == 'E'
  let negative ← sign
  let n := Decimal.ofDigits (← digitRun Char.isDigit)
  return if negative then -(n : Int) else n

/-- A float with digits; it must not be too great. -/
def fraction : Reader Value := do
  let negative ← sign
  let whole ← wholeDigits
  let places ← optional (do only '.'; digitRun Char.isDigit)
  let exponent ← if places.isSome then optional power else some <$> power
  let digits := whole ++ places.getD []
  let value := Decimal.toFloat
    ⟨Decimal.ofDigits digits, exponent.getD 0 - ((places.getD []).length : Nat)⟩
  if negative then return .float (-value)
  else if value.isInf then failure
  else return .float value

def special : Reader Value := do
  let negative ← sign
  let value ← (do word ['i', 'n', 'f']; return 1.0 / 0.0) <|>
    (do word ['n', 'a', 'n']; return 0.0 / 0.0)
  return .float (if negative then -value else value)

/-! ## Points in time -/

def fixedDigits (n : Nat) : Reader (List Char) := (List.range n).mapM fun _ => char Char.isDigit

def two (low high : Nat) : Reader (List Char) := do
  let digits ← fixedDigits 2
  let n := Decimal.ofDigits digits
  if low ≤ n ∧ n ≤ high then return digits else failure

def daysIn (year month : Nat) : Nat :=
  let leap := year % 4 == 0 && (year % 100 ≠ 0 || year % 400 == 0)
  if month = 2 then if leap then 29 else 28
  else if month = 4 ∨ month = 6 ∨ month = 9 ∨ month = 11 then 30
  else 31

def date : Reader (List Char) := do
  let year ← fixedDigits 4
  only '-'
  let month ← two 1 12
  only '-'
  let day ← two 1 31
  if Decimal.ofDigits day ≤ daysIn (Decimal.ofDigits year) (Decimal.ofDigits month) then
    return year ++ '-' :: month ++ '-' :: day
  else failure

/-- A fraction of a second; nine digits count, and zeros at their end do not show. -/
def secondFraction : Reader (List Char) := do
  only '.'
  let digits ← spanSome Char.isDigit
  let shown := ((digits.take 9).reverse.dropWhile (· == '0')).reverse
  return if shown = [] then [] else '.' :: shown

def time : Reader (List Char) := do
  let hour ← two 0 23
  only ':'
  let minute ← two 0 59
  only ':'
  let second ← two 0 60
  let rest ← optional secondFraction
  return hour ++ ':' :: minute ++ ':' :: second ++ rest.getD []

def offset : Reader (List Char) := do
  let c ← char fun c => c == 'Z' || c == 'z' || c == '+' || c == '-'
  if c == 'Z' || c == 'z' then return ['Z']
  let hour ← two 0 23
  only ':'
  let minute ← two 0 59
  let zero := Decimal.ofDigits (hour ++ minute) == 0
  return (if zero then '+' else c) :: hour ++ ':' :: minute

def pointInTime : Reader Value := (do
  let day ← date
  let rest ← optional (do
    let _ ← char fun c => c == 'T' || c == 't' || c == ' '
    let clock ← time
    let distance ← optional offset
    return 'T' :: clock ++ distance.getD [])
  return .datetime (String.ofList (day ++ rest.getD []))) <|> (do
  return .datetime (String.ofList (← time)))

def scalar : Reader Value := do
  match ← next? with
  | none => failure
  | some c =>
    if c == '"' || c == '\'' then return .text (← text)
    if c == 't' then
      word ['t', 'r', 'u', 'e']
      return .boolean true
    if c == 'f' then
      word ['f', 'a', 'l', 's', 'e']
      return .boolean false
    pointInTime <|> fraction <|> special <|> based 'x' 16 <|> based 'o' 8 <|> based 'b' 2 <|>
      decimal

/-! ## Keys, arrays and tables -/

def isBare (c : Char) : Bool :=
  c.isAlphanum || c == '_' || c == '-'

def keyPart : Reader String := do
  blanks
  let part ← quoted <|> literal <|> (do return String.ofList (← spanSome isBare))
  blanks
  return part

/-- How deep values may be nested, and how many parts a key may have. -/
def depthLimit : Nat := 79

def key : Reader (List String × String) := do
  let parts ← separated (only '.') keyPart
  if depthLimit < parts.length then failure
  return (parts.dropLast, parts.getLast?.getD "")

def array (inner : Reader Value) : Reader Value := do
  only '['
  let items ← optional (separated (only ',') (do space; let v ← inner; space; return v))
  if items.isSome then
    let _ ← optional (only ',')
  space
  only ']'
  return .array (items.getD [])

def binding (inner : Reader Value) : Reader (List String × String × Value) := do
  let (path, last) ← key
  only '='
  blanks
  let v ← inner
  blanks
  return (path, last, v)

/-- A table on one line whose values `inner` reads. -/
def inlineTable (inner : Reader Value) : Reader Value := do
  only '\x7b'
  let bindings ← optional (separated (only ',') (binding inner))
  blanks
  only '\x7d'
  let es ← (bindings.getD []).foldlM (fun es b => Entries.define b.1 b.2.1 b.2.2 es) ([] : Entries)
  return .table (Entries.sealEntries es)

/-- A value with at most `n` arrays and tables around its parts. -/
def value : Nat → Reader Value
  | 0 => scalar
  | n + 1 => do
    match ← next? with
    | some '[' => array (value n)
    | some '\x7b' => inlineTable (value n)
    | _ => scalar

/-! ## Whole files -/

def header (d : Draft) : Reader Draft := fun s =>
  match s with
  | '[' :: '[' :: rest => (do
      let (path, last) ← key
      word [']', ']']
      lineEnd
      d.beginRepeated path last) rest
  | '[' :: rest => (do
      let (path, last) ← key
      only ']'
      lineEnd
      d.beginTable path last) rest
  | _ => none

def assignment (d : Draft) : Reader Draft := do
  let (path, last, v) ← binding (value depthLimit)
  lineEnd
  d.define path last v

/-- The lines of a file, at most `n` of them. -/
def lines : Nat → Draft → Reader Draft
  | 0, d => return d
  | n + 1, d => do
    blanks
    match ← next? with
    | none => return d
    | some c =>
      if c == '#' || c == '\n' || c == '\r' then
        lineEnd
        lines n d
      else if c == '[' then lines n (← header d)
      else lines n (← assignment d)

def read (s : String) : Option (List (String × Value)) := do
  let cs := match s.toList with
    | '\uFEFF' :: rest => rest
    | cs => cs
  let (d, _) ← lines (cs.length + 1) .empty cs
  return Entries.sealEntries (← d.finish)

end PackHost.Toml
