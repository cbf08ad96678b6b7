import PackHost.Text.Quoted

/-!
# Outlines

The structure of a value as diagnostics show it: a named record, a named tuple, a list, a table or
plain text. `Outline.line` writes it on one line, `Outline.block` with one part per line, indented
by four blanks and each followed by a comma.
-/

namespace PackHost.Text

inductive Outline where
  | plain (text : String)
  | record (name : String) (fields : List (String × Outline))
  | tuple (name : String) (parts : List Outline)
  | list (items : List Outline)
  | table (entries : List (String × Outline))

namespace Outline

def text (s : String) : Outline := .plain (quoted s)

def nat (n : Nat) : Outline := .plain (toString n)

def option {α : Type} (show_ : α → Outline) : Option α → Outline
  | none => .plain "None"
  | some a => .tuple "Some" [show_ a]

mutual

def line : Outline → String
  | .plain s => s
  | .record name [] => name
  | .record name (f :: fs) => name ++ " \x7b " ++ ", ".intercalate (lineFields (f :: fs)) ++ " \x7d"
  | .tuple name [] => name
  | .tuple name (p :: ps) => name ++ "(" ++ ", ".intercalate (lines (p :: ps)) ++ ")"
  | .list items => "[" ++ ", ".intercalate (lines items) ++ "]"
  | .table entries => "\x7b" ++ ", ".intercalate (lineFields entries) ++ "\x7d"

def lines : List Outline → List String
  | [] => []
  | o :: os => o.line :: lines os

def lineFields : List (String × Outline) → List String
  | [] => []
  | f :: fs => (f.1 ++ ": " ++ f.2.line) :: lineFields fs

end

def indent (depth : Nat) : String := "".pushn ' ' (4 * depth)

mutual

/-- The outline over several lines; its parts stand one level deeper than `depth`. -/
def blockAt (depth : Nat) : Outline → String
  | .plain s => s
  | .record name [] => name
  | .record name (f :: fs) =>
    name ++ " \x7b\n" ++ blockFields (depth + 1) (f :: fs) ++ indent depth ++ "\x7d"
  | .tuple name [] => name
  | .tuple name (p :: ps) =>
    name ++ "(\n" ++ blockItems (depth + 1) (p :: ps) ++ indent depth ++ ")"
  | .list [] => "[]"
  | .list (o :: os) => "[\n" ++ blockItems (depth + 1) (o :: os) ++ indent depth ++ "]"
  | .table [] => "\x7b\x7d"
  | .table (e :: es) => "\x7b\n" ++ blockFields (depth + 1) (e :: es) ++ indent depth ++ "\x7d"

def blockItems (depth : Nat) : List Outline → String
  | [] => ""
  | o :: os => indent depth ++ o.blockAt depth ++ ",\n" ++ blockItems depth os

def blockFields (depth : Nat) : List (String × Outline) → String
  | [] => ""
  | f :: fs => indent depth ++ f.1 ++ ": " ++ f.2.blockAt depth ++ ",\n" ++ blockFields depth fs

end

def block (o : Outline) : String := o.blockAt 0

end Outline

end PackHost.Text
