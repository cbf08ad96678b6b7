import PackHost.Proofs.Text.Cut
import PackHost.Source.Downlevel

/-!
# The pass over a source text, with places in bytes

A second reading of the pass. It keeps what it writes in order, remembers the places of brackets and
groups as numbers of bytes, and takes parameters out of the written text by cutting it there. Every
cut may fail, and then the pass has no result at all; nothing here says that the places that are
remembered are still places between two characters of the text.
-/

namespace PackHost.Source

open Text (from? upTo? between? truncate? places)
open String (utf8Len)

structure OpenMark where
  bracket : Char
  place : Position
  /-- How many bytes were written before it. -/
  offset : Nat
  /-- Whether it opens the body of a `switch`. -/
  isSwitchBody : Bool
deriving DecidableEq, Repr

structure GroupSpan where
  /-- How many bytes stand before the opening one. -/
  first : Nat
  /-- How many bytes end with the closing one. -/
  last : Nat
deriving DecidableEq, Repr

structure Draft where
  read : Nat
  place : Position
  out : List Char
  stack : List OpenMark
  group : Option GroupSpan
  /-- Whether the next brace opens the body of a `switch`. -/
  switchPending : Bool
deriving DecidableEq, Repr

/-! ## Arrow functions -/

def trimEnd (text : List Char) : List Char := (text.reverse.dropWhile Text.isBlank).reverse

def withParams (text params : List Char) : List Char := text ++ '|' :: params ++ ['|']

/-- The text with the group that ends it, up to the given number of bytes, written as parameters. -/
def rewriteGroup? (out : List Char) (stop : Nat) :
    Option GroupSpan → Option (Option (List Char))
  | none => some none
  | some g =>
    if g.last = stop ∧ g.first < g.last then
      (from? g.first out).bind fun tail =>
        if tail.head? = some '(' then
          (between? (g.first + 1) (g.last - 1) out).bind fun params =>
            (truncate? g.first out).map fun kept => some (withParams kept (trim params))
        else some none
    else some none

/-- Where the run of word characters at the end of the text begins, if there is one. -/
def wordStart? (text : List Char) : Option Nat :=
  (((places 0 text).reverse.takeWhile fun c => isWordPart c.2).getLast?).map Prod.fst

/-- The text with the word that ends it, up to the given number of bytes, written as a parameter. -/
def rewriteWord? (out : List Char) (stop : Nat) : Option (Option (List Char)) :=
  (upTo? stop out).bind fun trimmed =>
    match wordStart? trimmed with
    | none => some none
    | some start =>
      (from? start trimmed).bind fun word =>
        (upTo? start trimmed).bind fun before =>
          if word.head?.any isWordStart ∧ before.getLast? ≠ some '.' then
            (truncate? start out).map fun kept => some (withParams kept word)
          else some none

/-- The text with the parameters of an arrow function between bars, or nothing if it ends with
neither a group nor a word; no answer if a cut fails. -/
def rewriteParams? (out : List Char) (group : Option GroupSpan) : Option (Option (List Char)) :=
  let stop := utf8Len (trimEnd out)
  (rewriteGroup? out stop group).bind fun
    | some written => some (some written)
    | none => rewriteWord? out stop

/-! ## The pass -/

/-- The source text behind a number of characters, if there are so many. -/
def unread? (n : Nat) (source : List Char) : Option (List Char) :=
  if n ≤ source.length then some (source.drop n) else none

namespace Draft

def start : Draft := ⟨0, Position.start, [], [], none, false⟩

def write (d : Draft) (text : List Char) : Draft := { d with out := d.out ++ text }

/-- The state in which the pass goes on behind a lexeme, where `d'` is what it did to the state
`d`. -/
def behind (d : Draft) (l : Lexeme) (d' : Draft) : Draft :=
  { d' with read := d.read + l.source.length, place := d.place.advance l.source }

/-- Whether the innermost open bracket is the body of a `switch`. -/
def inSwitch (d : Draft) : Bool := (d.stack.head?.map OpenMark.isSwitchBody).getD false

def openBracket (d : Draft) (bracket : Char) : Draft :=
  let body := bracket == '{' && d.switchPending
  { d with
    out := d.out ++ [bracket]
    stack := ⟨bracket, d.place, utf8Len d.out, body⟩ :: d.stack
    switchPending := d.switchPending && bracket != '{' }

def closeBracket (d : Draft) (bracket : Char) : Except Fault Draft :=
  match d.stack with
  | [] => .error (.unexpectedClose bracket d.place)
  | b :: stack =>
    if bracket = closingOf b.bracket then
      let out := d.out ++ [bracket]
      .ok { d with
        out
        stack
        group := if bracket = ')' then some ⟨b.offset, utf8Len out⟩ else d.group }
    else .error (.mismatched bracket (closingOf b.bracket) d.place b.place.line)

def arrow? (d : Draft) : Option Draft :=
  if d.inSwitch then some (d.write ['=', '>'])
  else
    (rewriteParams? d.out d.group).map fun
      | some out => { d with out, group := none }
      | none => { d with group := none }.write ['=', '>']

/-- A lexeme that is neither a bracket nor an arrow, in front of the given text: it looks at no
place that is remembered. -/
def writeLexeme (d : Draft) (rest : List Char) (l : Lexeme) : Except Fault Draft :=
  (Scan.step ⟨d.out.reverse, [], none, d.switchPending⟩ d.place rest l).map fun s =>
    { d with out := s.out.reverse, switchPending := s.switchPending }

/-- What a lexeme of the source text does; no answer if a cut fails. -/
def step? (source : List Char) (d : Draft) : Lexeme → Option (Except Fault Draft)
  | .opening bracket => some (.ok (d.openBracket bracket))
  | .closing bracket => some (d.closeBracket bracket)
  | .arrow => d.arrow?.map .ok
  | l => (unread? (d.read + l.source.length) source).map fun rest => d.writeLexeme rest l

def run? (source : List Char) (d : Draft) : Option (Except Fault Draft) :=
  match _h : read? (source.drop d.read) with
  | none => some (.ok d)
  | some .openLiteral => some (.error (.unterminatedString d.place))
  | some .openComment => some (.error (.unterminatedComment d.place))
  | some (.lexeme l _rest) =>
    match d.step? source l with
    | none => none
    | some (.error f) => some (.error f)
    | some (.ok d') => run? source (d.behind l d')
termination_by source.length - d.read
decreasing_by
  have hlost := congrArg List.length (append_of_read? ‹_›)
  have hshort := length_lt_of_read? ‹_›
  simp only [List.length_append, List.length_drop] at hlost hshort
  simp only [behind]
  omega

/-- The written text, unless a bracket is still open. -/
def finish (d : Draft) : Except Fault String :=
  match d.stack with
  | [] => .ok (String.ofList d.out)
  | b :: _ => .error (.unclosed b.bracket b.place)

/-- The states that the pass goes through. -/
inductive Reached (source : List Char) : Draft → Prop
  | start : Reached source start
  | step {d d' : Draft} {l : Lexeme} {rest : List Char} :
      Reached source d → read? (source.drop d.read) = some (.lexeme l rest) →
      d.step? source l = some (.ok d') → Reached source (d.behind l d')

end Draft

/-- The source text in the syntax of the engines; no answer if a cut fails. -/
def draft? (source : String) : Option (Except Fault String) :=
  (Draft.start.run? source.toList).map fun r => r.bind Draft.finish

end PackHost.Source
