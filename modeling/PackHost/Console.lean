import PackHost.ScriptKind
import PackHost.Text.Outline

/-!
# Consoles and the log

A console takes lines from scripts and their manager. It keeps them, or passes them on to the log of
the process, whose entries have a target and fields.
-/

namespace PackHost

inductive Level where
  | info
  | warn
  | error
deriving DecidableEq, Repr

namespace Level

def label : Level → String
  | .info => "INFO"
  | .warn => "WARN"
  | .error => "ERROR"

end Level

structure Line where
  level : Level
  text : String
deriving DecidableEq, Repr

structure LogEntry where
  level : Level
  target : String
  message : String
  fields : List (String × String)
deriving DecidableEq, Repr

namespace LogEntry

def plain (level : Level) (target message : String) : LogEntry := ⟨level, target, message, []⟩

/-- A line of a console that passes it on for scripts of the given kind. -/
def ofLine (kind : ScriptKind) (l : Line) : LogEntry :=
  ⟨l.level, "scripting", l.text, [("script_type", Text.quoted kind.name)]⟩

end LogEntry

inductive Sink where
  | kept
  /-- They go to the log of the process, marked with the kind of the scripts. -/
  | logged (kind : ScriptKind)
deriving DecidableEq, Repr

/-- A console that passes its lines on, as diagnostics show it. -/
def ScriptKind.consoleOutline (kind : ScriptKind) : Text.Outline :=
  .record "TracingConsole" [("script_type", .plain kind.label)]

/-- The lines of a console, the newest first. -/
abbrev Lines := List Line

namespace Lines

/-- The texts at the given level, the oldest first. -/
def atLevel (lines : Lines) (level : Level) : List String :=
  (lines.reverse.filter fun l => l.level == level).map Line.text

end Lines

end PackHost
