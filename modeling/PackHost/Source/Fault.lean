import PackHost.Source.Position
import PackHost.Text.Outline

/-!
# Why a source text is refused

The causes for which a preprocessor refuses a source text, each with the place it points at, and
their messages.
-/

namespace PackHost.Source

inductive Fault where
  | moduleLoading (keyword : String) (at_ : Position)
  | unexpectedClose (found : Char) (at_ : Position)
  | mismatched (found expected : Char) (at_ : Position) (openLine : Nat)
  | unclosed (bracket : Char) (at_ : Position)
  | unterminatedString (at_ : Position)
  | unterminatedComment (at_ : Position)
  | other (message : String)
deriving DecidableEq, Repr

namespace Fault

/-- The place the fault points at, if it is known. -/
def position? : Fault → Option Position
  | .moduleLoading _ p => some p
  | .unexpectedClose _ p => some p
  | .mismatched _ _ p _ => some p
  | .unclosed _ p => some p
  | .unterminatedString p => some p
  | .unterminatedComment p => some p
  | .other _ => none

/-- The line the fault points at, if it is known. -/
def line? (f : Fault) : Option Nat := f.position?.map Position.line

def complaint : Fault → String
  | .moduleLoading keyword _ =>
    "'" ++ keyword ++ "' is not supported, files in a pack are loaded automatically"
  | .unexpectedClose found _ => "unexpected '" ++ found.toString ++ "'"
  | .mismatched found expected _ openLine =>
    "found '" ++ found.toString ++ "', expected '" ++ expected.toString ++ "' to close line " ++
      toString openLine
  | .unclosed bracket _ => "'" ++ bracket.toString ++ "' is never closed"
  | .unterminatedString _ => "unterminated string literal"
  | .unterminatedComment _ => "unterminated block comment"
  | .other message => message

def message (f : Fault) : String :=
  match f.position? with
  | some p => "line " ++ toString p.line ++ ", column " ++ toString p.column ++ ": " ++ f.complaint
  | none => f.complaint

def causeName : Fault → String
  | .moduleLoading .. => "ModuleLoading"
  | .unexpectedClose .. => "UnexpectedClose"
  | .mismatched .. => "Mismatched"
  | .unclosed .. => "Unclosed"
  | .unterminatedString .. => "UnterminatedString"
  | .unterminatedComment .. => "UnterminatedComment"
  | .other .. => "Other"

def placeFields (p : Position) : List (String × Text.Outline) :=
  [("line", .nat p.line), ("column", .nat p.column)]

def fields : Fault → List (String × Text.Outline)
  | .moduleLoading keyword p => ("keyword", .text keyword) :: placeFields p
  | .unexpectedClose found p => ("found", .plain (Text.quotedChar found)) :: placeFields p
  | .mismatched found expected p openLine =>
    [("found", .plain (Text.quotedChar found)), ("expected", .plain (Text.quotedChar expected))] ++
      placeFields p ++ [("open_line", .nat openLine)]
  | .unclosed bracket p => ("open", .plain (Text.quotedChar bracket)) :: placeFields p
  | .unterminatedString p => placeFields p
  | .unterminatedComment p => placeFields p
  | .other message => [("message", .text message)]

def outline (f : Fault) : Text.Outline := .record f.causeName f.fields

end Fault

end PackHost.Source
