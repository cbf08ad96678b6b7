import PackHost.Console
import PackHost.Text.Alphabet

/-!
# Filters of the log

A filter is written as directives with commas between them: a level for everything (`warn`), or a
target with a level (`scripting=error`). Of the directives whose target an entry's target starts
with, the one with the longest target decides.
-/

namespace PackHost

namespace LogEntry

def line (e : LogEntry) : String :=
  " ".intercalate ((e.level.label ++ " " ++ e.target ++ ": " ++ e.message) ::
    e.fields.map fun f => f.1 ++ "=" ++ f.2)

end LogEntry

/-- How much is let through, from nothing (0) and errors only (1) to everything (5). -/
abbrev Verbosity := Nat

def Level.verbosity : Level → Verbosity
  | .error => 1
  | .warn => 2
  | .info => 3

/-- The names for how much is let through, in ascending order. -/
def verbosityNames : List String := ["off", "error", "warn", "info", "debug", "trace"]

/-- How much a word lets through: a name in capitals or small letters, or a number. -/
def verbosity? (word : String) : Option Verbosity :=
  let small := word.map Char.toLower
  (List.range verbosityNames.length).find? fun n =>
    verbosityNames[n]? == some small || toString n == word

/-- What is let through of the entries whose target starts with a text. -/
structure LogDirective where
  target : String
  verbosity : Verbosity
deriving DecidableEq, Repr

/-- A filter; of two directives with targets of one length the later one decides. -/
structure LogFilter where
  directives : List LogDirective
deriving DecidableEq, Repr

namespace LogFilter

def uniform (v : Verbosity) : LogFilter := ⟨[⟨"", v⟩]⟩

/-- The better of two directives for one entry, the first of which stands earlier. -/
def better (a b : LogDirective) : LogDirective := if b.target.length < a.target.length then a else b

/-- The directive that decides about entries with the given target. -/
def decisive? (f : LogFilter) (target : String) : Option LogDirective :=
  (f.directives.filter fun d => d.target.toList.isPrefixOf target.toList).foldl
    (fun best d => some ((best.map fun b => better b d).getD d)) none

def passes (f : LogFilter) (e : LogEntry) : Bool :=
  ((f.decisive? e.target).map fun d => decide (e.level.verbosity ≤ d.verbosity)).getD false

def inTarget (c : Char) : Bool := Text.isAlphanumeric c || c == '_' || c == ':' || c == '-'

/-- Reads a directive. A target without a level lets everything through. A directive about spans
says nothing about entries of this log. -/
def directive? (s : String) : Option (List LogDirective) :=
  let cs := s.toList
  let target := cs.takeWhile inTarget
  let rest := cs.drop target.length
  let name := String.ofList target
  match target, rest with
  | [], '[' :: inner => if inner.contains ']' then some [] else none
  | [], _ => none
  | _, [] =>
    match verbosity? s with
    | some v => some [⟨"", v⟩]
    | none => some [⟨name, 5⟩]
  | _, ['='] => some [⟨name, 5⟩]
  | _, '=' :: level => (verbosity? (String.ofList level)).map fun v => [⟨name, v⟩]
  | _, '[' :: inner => if inner.contains ']' then some [] else none
  | _, _ => none

/-- Reads a filter; one without directives lets errors through. -/
def read (text : String) : Option LogFilter :=
  match (text.splitOn ",").filter (· ≠ "") with
  | [] => some (uniform 1)
  | parts => (parts.mapM directive?).map fun ds => ⟨ds.flatten⟩

end LogFilter

end PackHost
