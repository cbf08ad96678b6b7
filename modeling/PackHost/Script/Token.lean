import PackHost.Source.Position

/-!
# Tokens of scripts

The smallest parts of a script that mean something. A text between backticks comes as chunks: each
chunk but the last is followed by the tokens of a block that is put in after it.
-/

namespace PackHost.Script

open Source (Position)

inductive Token where
  | int (i : Int64)
  | float (x : Float)
  | char (c : Char)
  | text (s : String)
  | chunk (s : String)
  | name (s : String)
  | keyword (s : String)
  | reserved (s : String)
  | sign (s : String)
  | bad (reason : String)
  | finish

structure Placed where
  token : Token
  place : Position

def keywords : List String :=
  ["true", "false", "let", "const", "if", "else", "switch", "do", "while", "until", "loop", "for",
    "in", "fn", "private", "continue", "break", "return", "throw", "try", "catch", "import", "export",
    "as"]

def functionWords : List String :=
  ["print", "debug", "type_of", "eval", "Fn", "is_def_var", "is_def_fn", "is_shared"]

def methodWords : List String := ["call", "curry", "type_of"]

/-- The words that are kept and mean nothing. -/
def idleWords : List String :=
  ["is", "new", "nil", "var", "use", "void", "with", "sync", "case", "each", "goto", "match", "null",
    "then", "this", "async", "await", "go", "spawn", "super", "yield", "module", "public", "shared",
    "static", "thread", "default", "package", "protected"]

def isReserved (s : String) : Bool :=
  functionWords.contains s || methodWords.contains s || idleWords.contains s

def signs : List String :=
  ["**=", "<<=", ">>=", "..=", "===", "!==", "...", "->", "<-", ":=", "::", "++", "--", "=>", "==",
    "!=", "<=", ">=", "&&", "||", "??", "?.", "?[", "?", "**", "<<", ">>", "+=", "-=", "*=", "/=", "%=",
    "&=", "|=", "^=", "..", "#\x7b", "\x7b", "\x7d", "(", ")", "[", "]", "+", "-", "*", "/", "%", "=",
    "<", ">", "!", "&", "|", "^", ".", ",", ";", ":", "~", "@", "$", "#"]

/-- Signs that other languages have, with what is said about them. -/
def foreignSigns : List (String × String) :=
  [("===",
      "'===' is not a valid operator. This is not JavaScript! Should it be '=='?"),
    ("!==", "'!==' is not a valid operator. This is not JavaScript! Should it be '!='?"),
    ("->", "'->' is not a valid symbol. This is not C or C++!"),
    ("<-", "'<-' is not a valid symbol. This is not Go! Should it be '<='?"),
    (":=", "':=' is not a valid assignment operator. This is not Go or Pascal! Should it be simply '='?"),
    ("#", "'#' is not a valid symbol. Should it be '#\x7b'?")]

def idleSigns : List String := ["...", "++", "--", "~", "@", "$", "?"]

namespace Token

def endsOperand : Token → Bool
  | .int _ | .float _ | .char _ | .text _ | .name _ | .reserved _ => true
  | .sign s => s == ")" || s == "]" || s == "\x7d"
  | .keyword s => s == "true" || s == "false"
  | _ => false

/-- The token as it is written, if it is a sign or a word. -/
def written : Token → String
  | .name s | .keyword s | .reserved s | .sign s => s
  | .int i => toString i.toInt
  | .char c => String.ofList [c]
  | .text s | .chunk s => s
  | _ => ""

end Token

end PackHost.Script
