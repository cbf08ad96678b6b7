import PackHost.Number.Decimal
import PackHost.Text.Quoted
import PackHost.Toml.Value

/-!
# Writing configuration files

The text form in which tables are written: plain values first, then a header for each table below.
Text is written in the plainest of four forms that can hold it: between double quotes, between
single quotes, and each of the two in the triple form that keeps ends of lines.
-/

namespace PackHost.Toml

/-! ## Text -/

def longestRun (c : Char) : List Char → Nat
  | [] => 0
  | d :: ds => max ((d :: ds).takeWhile (· == c)).length (longestRun c ds)

def needsCode (c : Char) : Bool :=
  (c.toNat < 32 && c ≠ '\t' && c ≠ '\n') || c.toNat == 127

inductive TextForm where
  | quoted
  | literal
  | longQuoted
  | longLiteral
deriving DecidableEq, Repr

/-- Whether a form holds the text without escapes other than that of a tab. -/
def TextForm.holds (cs : List Char) : TextForm → Bool
  | .quoted =>
    !cs.any needsCode && !cs.contains '\\' && !cs.contains '"' && !cs.contains '\n'
  | .literal => !cs.any needsCode && !cs.contains '\'' && !cs.contains '\n'
  | .longQuoted => !cs.any needsCode && !cs.contains '\\' && longestRun '"' cs ≤ 2
  | .longLiteral => !cs.any needsCode && longestRun '\'' cs ≤ 2

def TextForm.choose (cs : List Char) : TextForm :=
  let forms : List TextForm := [.quoted, .literal, .longQuoted, .longLiteral]
  match forms.find? (TextForm.holds cs) with
  | some form => form
  | none => if cs.contains '\n' then .longQuoted else .quoted

def fourDigits (n : Nat) : List Char :=
  let digits := (Nat.toDigits 16 n).map Char.toUpper
  List.replicate (4 - digits.length) '0' ++ digits

/-- The escape of a character other than a quote, an end of line apart. -/
def escapeOf? (c : Char) : Option (List Char) :=
  if c = '\t' then some ['\\', 't']
  else if c = '\r' then some ['\\', 'r']
  else if c = '\\' then some ['\\', '\\']
  else if c.toNat = 8 then some ['\\', 'b']
  else if c.toNat = 12 then some ['\\', 'f']
  else if needsCode c then some ('\\' :: 'u' :: fourDigits c.toNat)
  else none

/-- Text with escapes; `allowed` quotes in a row need none, and `run` of them have just been
written. -/
def escaped (allowed : Nat) (long : Bool) : Nat → List Char → List Char
  | _, [] => []
  | run, c :: cs =>
    if c = '"' then
      if run < allowed then c :: escaped allowed long (run + 1) cs
      else '\\' :: c :: escaped allowed long 0 cs
    else if c = '\n' ∧ long = false then '\\' :: 'n' :: escaped allowed long 0 cs
    else
      match escapeOf? c with
      | some e => e ++ escaped allowed long 0 cs
      | none => c :: escaped allowed long 0 cs

/-- Text between three quotes; an end of line is put in front of text that has one. -/
def long (quote : Char) (cs body : List Char) : List Char :=
  let quotes := [quote, quote, quote]
  quotes ++ (if cs.contains '\n' then ['\n'] else []) ++ body ++ quotes

def textForm (s : String) : String :=
  let cs := s.toList
  String.ofList (match TextForm.choose cs with
    | .quoted => '"' :: escaped 0 false 0 cs ++ ['"']
    | .literal => '\'' :: cs ++ ['\'']
    | .longQuoted => long '"' cs (escaped 2 true 0 cs)
    | .longLiteral => long '\'' cs cs)

def isBareKeyChar (c : Char) : Bool := c.isAlphanum || c == '_' || c == '-'

/-- A key as it is written; keys stay on one line. -/
def keyForm (s : String) : String :=
  let cs := s.toList
  if cs ≠ [] ∧ cs.all isBareKeyChar then s
  else
    let form : TextForm :=
      if TextForm.holds cs .quoted then .quoted
      else if TextForm.holds cs .literal then .literal
      else .quoted
    String.ofList (if form = .literal then '\'' :: cs ++ ['\''] else '"' :: escaped 0 false 0 cs ++ ['"'])

/-! ## Values -/

def floatForm (x : Float) : String :=
  if x.isNaN then "nan" else floatText "inf" x fun d => withPoint d.positional

mutual

/-- A value behind a key. Arrays with more than one item have a line for each. -/
def valueForm : Value → String
  | .text s => textForm s
  | .integer n => toString n
  | .float x => floatForm x
  | .boolean b => if b then "true" else "false"
  | .datetime s => s
  | .array [] => "[]"
  | .array [v] => "[" ++ valueForm v ++ "]"
  | .array (v :: vs) => "[\n" ++ itemForms (v :: vs) ++ "]"
  | .table [] => "\x7b\x7d"
  | .table (e :: es) => "\x7b " ++ ", ".intercalate (entryForms (e :: es)) ++ " \x7d"

def itemForms : List Value → String
  | [] => ""
  | v :: vs => "    " ++ valueForm v ++ ",\n" ++ itemForms vs

def entryForms : List (String × Value) → List String
  | [] => []
  | e :: es => (keyForm e.1 ++ " = " ++ valueForm e.2) :: entryForms es

end

/-! ## Files -/

def isTable : Value → Bool
  | .table _ => true
  | _ => false

def hasHeader : Value → Bool
  | .table _ => true
  | .array [] => false
  | .array vs => vs.all isTable
  | _ => false

/-- The lines of the entries that have no headers of their own. -/
def plainLines (es : List (String × Value)) : String :=
  String.join ((entryForms (es.filter fun e => !hasHeader e.2)).map (· ++ "\n"))

def pathForm (path : List String) : String := ".".intercalate (path.map keyForm)

mutual

/-- The parts of a file that the entries below a path take, each with its header. -/
def entryParts (path : List String) : List (String × Value) → List String
  | [] => []
  | e :: es => valueParts (path ++ [e.1]) e.2 ++ entryParts path es

/-- The parts of a file that a value takes. A table needs no header of its own if it holds only
tables. -/
def valueParts (path : List String) : Value → List String
  | .table es =>
    let own := "[" ++ pathForm path ++ "]\n" ++ plainLines es
    (if es ≠ [] ∧ es.all (fun e => hasHeader e.2) then [] else [own]) ++ entryParts path es
  | .array vs => if hasHeader (.array vs) then itemParts path vs else []
  | _ => []

/-- The parts of a file that the tables of a repeated header take. -/
def itemParts (path : List String) : List Value → List String
  | [] => []
  | .table es :: vs =>
    ("[[" ++ pathForm path ++ "]]\n" ++ plainLines es) :: entryParts path es ++ itemParts path vs
  | _ :: vs => itemParts path vs

end

def write (es : List (String × Value)) : String :=
  let plain := plainLines es
  "\n".intercalate ((if plain = "" then [] else [plain]) ++ entryParts [] es)

example : textForm "say \"hi\"" = "'say \"hi\"'" := by decide +kernel

example : keyForm "a b" = "\"a b\"" := by decide +kernel

end PackHost.Toml
