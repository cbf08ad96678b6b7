import PackHost.CommandLine.Arguments
import PackHost.CommandLine.Watch
import PackHost.Config.File
import PackHost.Log.Filter

/-!
# Runs of the program

What the program does with a file tree: it reads its settings, loads scripts, and reports by its log
and its exit code. The log can also be added to a file in the data directory.
-/

namespace PackHost.CommandLine

open Files (Path Tree)

structure Start where
  arguments : List String
  environment : Config.Environment
  filter : Option String

structure Report where
  exit : Nat
  lines : List String
  failure : Option String
  tree : Tree

def versionLine : String := "rigging-cli 0.1.0-beta"

/-! ## The log file -/

/-- The size in bytes beyond which the log file is started again. -/
def mostLogBytes : Nat := 1048576

def logPath? (e : Config.Environment) : Option Path :=
  (e.directories? Config.programName).map fun d => (d.data.join ⟨"logs"⟩).join ⟨"rigging.log"⟩

/-- The file tree with the log file, and what is in it; nothing if it cannot be written. -/
def openLog (e : Config.Environment) (t : Tree) : Option (Path × ByteArray × Tree) :=
  (logPath? e).bind fun path =>
    match t.makeParents path with
    | (_, some _) => none
    | (t', none) =>
      let old := match t'.read path with
        | .ok bytes => if mostLogBytes < bytes.size then .empty else bytes
        | .error _ => .empty
      match t'.write path old with
      | .ok t'' => some (path, old, t'')
      | .error _ => none

def linesText (lines : List String) : String := String.join (lines.map (· ++ "\n"))

/-! ## Runs -/

def Command.kinds : Command → List ScriptKind
  | .load kinds => requested kinds
  | .watch kind _ => [kind]

def configPath (e : Config.Environment) (a : Arguments) : Path := a.config.getD e.configPath

/-- The settings, where the base directory of the arguments counts more. -/
def settings (e : Config.Environment) (a : Arguments) (t : Tree) :
    Except Config.LoadFault (Config.Settings × List LogEntry) :=
  (Config.loadOrDefault t (configPath e a)).map fun r =>
    ({ r.1 with baseDirectory := a.base.or r.1.baseDirectory }, r.2)

/-- The paths at and below which a run looks and writes, the one with the settings first. -/
def places (e : Config.Environment) (a : Arguments) (t : Tree) : List Path :=
  let roots := match settings e a t with
    | .error _ => []
    | .ok (s, _) => a.command.kinds.flatMap fun k => s.rootOf e k :: s.extraOf k
  configPath e a :: (roots ++ if a.logFile then (logPath? e).toList else [])

/-- Does what the arguments ask for, if the settings allow scripts; a watch takes the given turns. -/
def perform (e : Config.Environment) (a : Arguments) (turns : List Turn) (stop : Stop) (t : Tree) :
    Option Ending :=
  let path := configPath e a
  match settings e a t with
  | .error _ => some ⟨1, [], some ("Failed to load config from " ++ path.text), t⟩
  | .ok (s, notes) =>
    let ending? :=
      if s.enabled then
        match a.command with
        | .load kinds => load s e kinds t
        | .watch kind interval => watch s e kind interval turns stop t
      else some ⟨0, [.plain .info target ("Scripting is disabled in " ++ path.text)], none, t⟩
    ending?.map fun r => { r with log := notes ++ r.log }

/-- What is let through to the log where nothing readable is said about it. -/
def defaultFilter (a : Arguments) : LogFilter := .uniform (if a.verbose then 4 else 3)

/-- Runs the program, where a watch takes the given turns and is then stopped; nothing if that does
not end. -/
def runThrough (turns : List Turn) (stop : Stop) (start : Start) (t : Tree) : Option Report :=
  match Request.read start.arguments with
  | none => some ⟨2, [], none, t⟩
  | some .version => some ⟨0, [versionLine], none, t⟩
  | some (.run a) =>
    let e := start.environment
    let filter := (start.filter.bind LogFilter.read).getD (defaultFilter a)
    let shown (log : List LogEntry) : List String := (log.filter filter.passes).map LogEntry.line
    if a.logFile then
      match openLog e t with
      | none => some ⟨1, [], some "Failed to initialize logging", t⟩
      | some (path, old, t') =>
        (perform e a turns stop t').map fun r =>
          let lines := shown (.plain .info (target ++ "::logging")
            ("Logging to file: " ++ path.text) :: r.log)
          let written := (r.tree.write path (old ++ (linesText lines).toUTF8)).toOption
          ⟨r.exit, lines, r.failure, written.getD r.tree⟩
    else (perform e a turns stop t).map fun r => ⟨r.exit, shown r.log, r.failure, r.tree⟩

/-- Runs the program, where a watch is stopped at once; nothing if that does not end. -/
def run (start : Start) (t : Tree) : Option Report := runThrough [] .told start t

end PackHost.CommandLine
