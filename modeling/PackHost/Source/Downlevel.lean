import PackHost.Source.Fault
import PackHost.Source.Lexeme

/-!
# Writing common habits in the syntax of the engines

`downlevel` reads a source text lexeme by lexeme and writes it again. `var` becomes `let`, `===` and
`!==` lose an equals sign, a quoted text in single quotes gets double quotes, and the parameters of
an arrow function move between bars. Comments, literals and everything else are copied. Loading
files by hand and brackets that do not fit are refused.

The state of the pass is a `Scan`; `Scan.step` says what one lexeme does to it.
-/

namespace PackHost.Source

structure OpenBracket where
  bracket : Char
  place : Position
  written : Nat
  /-- Whether it opens the body of a `switch`. -/
  isSwitchBody : Bool
deriving DecidableEq, Repr

structure Group where
  first : Nat
  last : Nat
deriving DecidableEq, Repr

structure Scan where
  /-- What was written so far, the newest character first. -/
  out : List Char
  stack : List OpenBracket
  group : Option Group
  /-- Whether the next brace opens the body of a `switch`. -/
  switchPending : Bool
deriving DecidableEq, Repr

def closingOf (bracket : Char) : Char :=
  if bracket = '(' then ')' else if bracket = '[' then ']' else '}'

def firstVisible? (text : List Char) : Option Char := text.find? fun c => !Text.isBlank c

def trim (text : List Char) : List Char :=
  ((text.dropWhile Text.isBlank).reverse.dropWhile Text.isBlank).reverse

/-! ## Arrow functions -/

/-- The text with the parameters between bars as its newest part; both are reversed. -/
def barred (params before : List Char) : List Char := '|' :: params ++ '|' :: before

/-- The reversed text with the group that ends it written as parameters. -/
def closureOfGroup? (trimmed : List Char) (g : Group) : Option (List Char) :=
  if trimmed.length = g.last ∧ g.first < g.last then
    let span := trimmed.take (g.last - g.first)
    if span.getLast? = some '(' then
      some (barred (trim (span.drop 1).dropLast) (trimmed.drop (g.last - g.first)))
    else none
  else none

/-- The reversed text with the word that ends it written as a parameter. -/
def closureOfWord? (trimmed : List Char) : Option (List Char) :=
  let word := trimmed.takeWhile isWordPart
  let before := trimmed.dropWhile isWordPart
  match word.getLast? with
  | none => none
  | some c => if isWordStart c ∧ before.head? ≠ some '.' then some (barred word before) else none

/-- The reversed text with the parameters of an arrow function between bars; nothing if it ends
with neither a group nor a word. -/
def closureParams? (out : List Char) (group : Option Group) : Option (List Char) :=
  let trimmed := out.dropWhile Text.isBlank
  match group.bind (closureOfGroup? trimmed) with
  | some written => some written
  | none => closureOfWord? trimmed

/-! ## One lexeme -/

/-- The literal as it is written: single quotes hold exactly one item. -/
def writeLiteral (quote : Char) (items : List Item) : List Char :=
  if quote = '\'' ∧ items.length ≠ 1 then '"' :: items.flatMap Item.doubleQuoted ++ ['"']
  else (Lexeme.literal quote items).source

namespace Scan

def start : Scan := ⟨[], [], none, false⟩

def write (s : Scan) (text : List Char) : Scan := { s with out := text.reverse ++ s.out }

def afterDot (s : Scan) : Bool := s.out.head? == some '.'

def openBracket (s : Scan) (p : Position) (bracket : Char) : Scan :=
  let body := bracket == '{' && s.switchPending
  { s with
    out := bracket :: s.out
    stack := ⟨bracket, p, s.out.length, body⟩ :: s.stack
    switchPending := s.switchPending && bracket != '{' }

def closeBracket (s : Scan) (p : Position) (bracket : Char) : Except Fault Scan :=
  match s.stack with
  | [] => .error (.unexpectedClose bracket p)
  | b :: stack =>
    if bracket = closingOf b.bracket then
      let out := bracket :: s.out
      .ok { s with
        out
        stack
        group := if bracket = ')' then some ⟨b.written, out.length⟩ else s.group }
    else .error (.mismatched bracket (closingOf b.bracket) p b.place.line)

/-- An arrow: it separates the arms of a `switch` body, and follows parameters elsewhere. -/
def arrow (s : Scan) : Scan :=
  if (s.stack.head?.map OpenBracket.isSwitchBody).getD false then s.write ['=', '>']
  else
    match closureParams? s.out s.group with
    | some out => { s with out, group := none }
    | none => { s with group := none }.write ['=', '>']

def word (s : Scan) (p : Position) (rest text : List Char) : Except Fault Scan :=
  if s.afterDot then .ok (s.write text)
  else if text = "var".toList ∧ firstVisible? rest ≠ some ':' then .ok (s.write "let".toList)
  else if text = "import".toList then .error (.moduleLoading "import" p)
  else if text = "require".toList ∧ firstVisible? rest = some '(' then
    .error (.moduleLoading "require" p)
  else if text = "switch".toList then .ok ({ s with switchPending := true }.write text)
  else .ok (s.write text)

/-- What a lexeme at the given place does, in front of the given text. -/
def step (s : Scan) (p : Position) (rest : List Char) : Lexeme → Except Fault Scan
  | .lineComment text => .ok (s.write text)
  | .blockComment text => .ok (s.write text)
  | .literal quote items => .ok (s.write (writeLiteral quote items))
  | .opening bracket => .ok (s.openBracket p bracket)
  | .closing bracket => s.closeBracket p bracket
  | .tripleEqual => .ok (s.write ['=', '='])
  | .notDoubleEqual => .ok (s.write ['!', '='])
  | .arrow => .ok s.arrow
  | .word text => s.word p rest text
  | .digits text => .ok (s.write text)
  | .other c => .ok (s.write [c])

/-- The state after the whole text, which starts at the given place. -/
def run (s : Scan) (p : Position) (text : List Char) : Except Fault Scan :=
  match _h : read? text with
  | none => .ok s
  | some .openLiteral => .error (.unterminatedString p)
  | some .openComment => .error (.unterminatedComment p)
  | some (.lexeme l rest) =>
    match s.step p rest l with
    | .error f => .error f
    | .ok s' => s'.run (p.advance l.source) rest
termination_by text.length
decreasing_by exact length_lt_of_read? ‹_›

/-- The written text, unless a bracket is still open. -/
def finish (s : Scan) : Except Fault String :=
  match s.stack with
  | [] => .ok (String.ofList s.out.reverse)
  | b :: _ => .error (.unclosed b.bracket b.place)

end Scan

def downlevel (source : String) : Except Fault String :=
  match Scan.start.run Position.start source.toList with
  | .error f => .error f
  | .ok s => s.finish

end PackHost.Source
