import PackHost.Files.Path
import PackHost.ScriptKind

/-!
# Arguments

The words behind the name of the program: options, a command, and what belongs to the command. The
options of the program may stand before and behind the command, each once on either side; behind the
command they count more. A value stands behind its option or is attached to it. Who asks for the
version, before a command, asks for nothing else.
-/

namespace PackHost.CommandLine

inductive Flag where
  | config
  | base
  | logFile
  | verbose
  /-- The milliseconds between two looks at the files. -/
  | interval
  | version
deriving DecidableEq, Repr

namespace Flag

def long : Flag → String
  | .config => "config"
  | .base => "base-dir"
  | .logFile => "log-file"
  | .verbose => "verbose"
  | .interval => "interval-ms"
  | .version => "version"

def short? : Flag → Option Char
  | .config => some 'c'
  | .base => some 'b'
  | .verbose => some 'v'
  | .version => some 'V'
  | _ => none

def takesValue : Flag → Bool
  | .config | .base | .interval => true
  | _ => false

def global : List Flag := [.config, .base, .logFile, .verbose]

end Flag

/-- Options with their values, and the words that are no options. -/
structure Words where
  flags : List (Flag × String)
  plain : List String

namespace Words

def empty : Words := ⟨[], []⟩

def flag (f : Flag) (value : String) (w : Words) : Words := { w with flags := (f, value) :: w.flags }

def word (s : String) (w : Words) : Words := { w with plain := s :: w.plain }

def isUnambiguous (w : Words) : Bool := decide (w.flags.map Prod.fst).Nodup

end Words

def isValue (s : String) : Bool := s == "-" || s.toList.head? != some '-'

def attached : List Char → String
  | '=' :: cs => String.ofList cs
  | cs => String.ofList cs

def longFlag? (known : List Flag) (cs : List Char) : Option (Flag × Option String) :=
  let name := String.ofList (cs.takeWhile (· ≠ '='))
  let rest := cs.dropWhile (· ≠ '=')
  (known.find? fun f => f.long == name).map fun f =>
    (f, if rest = [] then none else some (attached rest))

/-- The options of letters in one word: those without a value, and perhaps one with a value at the
end. Nothing counts behind the one that asks for the version. -/
def letterFlags? (known : List Flag) : List Char → Option (List Flag × Option (Flag × Option String))
  | [] => some ([], none)
  | c :: cs =>
    match known.find? fun f => f.short? == some c with
    | none => none
    | some .version => some ([.version], none)
    | some f =>
      if f.takesValue then some ([], some (f, if cs = [] then none else some (attached cs)))
      else (letterFlags? known cs).map fun r => (f :: r.1, r.2)

/-- Gives an option its value: the attached one, or the next word. -/
def takeValue (f : Flag) (value : Option String) (rest : List String)
    (go : List String → Option Words) : Option Words :=
  match value, f.takesValue, rest with
  | some v, true, _ => (go rest).map (Words.flag f v)
  | some _, false, _ => none
  | none, false, _ => (go rest).map (Words.flag f "")
  | none, true, s :: rest => if isValue s then (go rest).map (Words.flag f s) else none
  | none, true, [] => none

/-- Options without a value in front of what comes of the words behind them, which do not count if
one of the options asks for the version. -/
def putFlags (fs : List Flag) (rest : Option Words) : Option Words :=
  let behind := if .version ∈ fs then some .empty else rest
  behind.map fun w => fs.foldr (fun f w => w.flag f "") w

/-- Sorts words into options and others, at most `n` of them. With `first` the first other word ends
the options, and everything behind it is kept as it is. -/
def sort (known : List Flag) (first : Bool) : Nat → List String → Option Words
  | _, [] => some .empty
  | 0, _ => none
  | n + 1, s :: rest =>
    let go := sort known first n
    match s.toList with
    | ['-', '-'] => if first then none else some ⟨[], rest⟩
    | '-' :: '-' :: cs =>
      match longFlag? known cs with
      | none => none
      | some (.version, none) => putFlags [.version] none
      | some (f, value) => takeValue f value rest go
    | '-' :: c :: cs =>
      match letterFlags? known (c :: cs) with
      | none => none
      | some (fs, none) => putFlags fs (go rest)
      | some (fs, some (f, value)) => putFlags fs (takeValue f value rest go)
    | _ => if first then some ⟨[], s :: rest⟩ else (go rest).map (Words.word s)

inductive Command where
  | load (kinds : List ScriptKind)
  | watch (kind : ScriptKind) (interval : Option Nat)
deriving DecidableEq, Repr

structure Arguments where
  config : Option Files.Path
  base : Option Files.Path
  logFile : Bool
  verbose : Bool
  command : Command
deriving DecidableEq, Repr

def kind? (s : String) : Option ScriptKind := (ScriptKind.ofName? s).toOption

/-- A number of milliseconds, which fits into 64 bits. -/
def milliseconds? (s : String) : Option Nat :=
  let digits := match s.toList with
    | '+' :: cs => cs
    | cs => cs
  if digits.isEmpty || !digits.all Char.isDigit then none
  else
    let n := digits.foldl (fun n c => 10 * n + (c.toNat - '0'.toNat)) 0
    if n < 18446744073709551616 then some n else none

def command? (name : String) (w : Words) : Option Command :=
  if name = "load" then (w.plain.mapM kind?).map .load
  else
    let interval? : Option (Option Nat) :=
      match w.flags.lookup .interval with
      | none => some none
      | some s => (milliseconds? s).map some
    match w.plain, interval? with
    | [], some i => some (.watch .server i)
    | [s], some i => (kind? s).map fun k => .watch k i
    | _, _ => none

def flagsOf? (name : String) : Option (List Flag) :=
  if name = "load" then some Flag.global
  else if name = "watch" then some (.interval :: Flag.global)
  else none

def isReadable (p : Flag × String) : Bool :=
  match p.1 with
  | .config | .base => p.2 != ""
  | _ => true

inductive Request where
  | version
  | run (a : Arguments)
deriving DecidableEq, Repr

def Request.read (args : List String) : Option Request := do
  let outer ← sort (.version :: Flag.global) true (args.length + 1) args
  if !outer.isUnambiguous || !outer.flags.all isReadable then none
  else if (outer.flags.lookup .version).isSome then some .version
  else
    let name ← outer.plain.head?
    let inner ← sort (← flagsOf? name) false args.length (outer.plain.drop 1)
    let flags := inner.flags ++ outer.flags
    if !inner.isUnambiguous || !inner.flags.all isReadable then none
    else
      let command ← command? name inner
      let path (f : Flag) : Option Files.Path := (flags.lookup f).map (⟨·⟩)
      let given (f : Flag) : Bool := (flags.lookup f).isSome
      some (.run ⟨path .config, path .base, given .logFile, given .verbose, command⟩)

end PackHost.CommandLine
