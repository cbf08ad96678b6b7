import PackHost.Source.Downlevel

/-!
# Preprocessors

A preprocessor turns the text of a script file into the text that is run, or refuses it. It may also
crash, which is a result of its own.
-/

namespace PackHost.Source

/-- A rewriting of source text; no result stands for a crash. -/
abbrev Preprocessor := String → Option (Except Fault String)

namespace Preprocessor

def passthrough : Preprocessor := fun source => some (.ok source)

def downleveler : Preprocessor := fun source => some (downlevel source)

def capitals : Preprocessor := fun source =>
  some (.ok (String.ofList (source.toList.map Char.toUpper)))

def occursIn (needle : List Char) : List Char → Bool
  | [] => needle.isEmpty
  | c :: cs => needle.isPrefixOf (c :: cs) || occursIn needle cs

/-- Refuses texts that contain the given one, and leaves the others as they are. -/
def refusing (needle : String) : Preprocessor := fun source =>
  if occursIn needle.toList source.toList then
    some (.error (.other ("rejected " ++ toString source.utf8ByteSize ++ " bytes")))
  else some (.ok source)

def crashing : Preprocessor := fun _ => none

end Preprocessor

end PackHost.Source
