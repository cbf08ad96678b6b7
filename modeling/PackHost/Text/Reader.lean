/-!
# Readers

A reader takes something from the start of a text and leaves the rest, or takes nothing and fails.
`many` repeats a reader while it succeeds and takes something; the number of repetitions is bounded
by the length of the text.
-/

namespace PackHost.Text

/-- Takes something from the start of a text; none if the text does not start so. -/
abbrev Reader (α : Type) := StateT (List Char) Option α

namespace Reader

variable {α β : Type}

def char (p : Char → Bool) : Reader Char := fun s =>
  match s with
  | [] => none
  | c :: cs => if p c then some (c, cs) else none

def only (c : Char) : Reader Unit := do
  let _ ← char (· == c)

def word : List Char → Reader Unit
  | [] => pure ()
  | c :: cs => do
    only c
    word cs

/-- All characters from the start that satisfy `p`. -/
def span (p : Char → Bool) : Reader (List Char) := fun s => some (s.takeWhile p, s.dropWhile p)

/-- All characters from the start that satisfy `p`; at least one. -/
def spanSome (p : Char → Bool) : Reader (List Char) := do
  let c ← char p
  let cs ← span p
  return c :: cs

def next? : Reader (Option Char) := fun s => some (s.head?, s)

def atEnd : Reader Unit := fun s => if s = [] then some ((), []) else none

/-- What `r` takes in at most `n` steps, as long as it takes something. -/
def manyWithin (r : Reader α) : Nat → Reader (List α)
  | 0 => pure []
  | n + 1 => fun s =>
    match r s with
    | none => some ([], s)
    | some (a, rest) =>
      if rest.length < s.length then (manyWithin r n rest).map fun q => (a :: q.1, q.2)
      else some ([], s)

/-- What `r` takes, again and again, as long as it takes something. -/
def many (r : Reader α) : Reader (List α) := fun s => manyWithin r s.length s

/-- What `r` takes once and again after each `separator`. -/
def separated (separator : Reader β) (r : Reader α) : Reader (List α) := do
  let a ← r
  let more ← many (do let _ ← separator; r)
  return a :: more

end Reader

end PackHost.Text
