import PackHost.Text.Alphabet

/-!
# Quoted text

Text as it is shown in diagnostics: between double quotes, with control characters, quotes,
backslashes, extending marks and everything invisible written as an escape.
-/

namespace PackHost.Text

/-- The code point of a character in lower-case hexadecimal, without leading zeros. -/
def hexCode (c : Char) : List Char := Nat.toDigits 16 c.toNat

def escaped (quote c : Char) : List Char :=
  if c = '\x00' then ['\\', '0']
  else if c = '\t' then ['\\', 't']
  else if c = '\r' then ['\\', 'r']
  else if c = '\n' then ['\\', 'n']
  else if c = '\\' then ['\\', '\\']
  else if c = quote then ['\\', quote]
  else if isExtender c || !isVisible c then ['\\', 'u', '{'] ++ hexCode c ++ ['}']
  else [c]

def quoted (s : String) : String :=
  String.ofList ('"' :: s.toList.flatMap (escaped '"') ++ ['"'])

def quotedChar (c : Char) : String :=
  String.ofList ('\'' :: escaped '\'' c ++ ['\''])

example : quoted "a\"b\n" = "\"a\\\"b\\n\"" := by decide +kernel

end PackHost.Text
