import PackHost.Files.Path
import PackHost.Text.Case

/-!
# Directories of the platform

Where configuration, data and caches of a program lie. Each of the three has a variable of the
environment, which counts only if it holds an absolute path, and a place below the home directory.
-/

namespace PackHost.Config

open Files (Path)

structure Environment where
  home : Option Path
  configHome : Option Path
  dataHome : Option Path
  cacheHome : Option Path
deriving DecidableEq, Repr

structure Directories where
  config : Path
  data : Path
  cache : Path
deriving DecidableEq, Repr

def programName : String := "rigging"

/-- The name of a program in paths: its words in small letters, put together. -/
def directoryName (name : String) : String :=
  String.join ((Text.wordsOf name.toList).map fun w => Text.smallLetters (String.ofList w))

/-- The variable, if it is an absolute path, and else the place below the home directory. -/
def placeOf (variable_ : Option Path) (home : Path) (below : String) : Path :=
  match variable_ with
  | some p => if p.isAbsolute then p else home.join ⟨below⟩
  | none => home.join ⟨below⟩

namespace Environment

/-- The directories of the program with the given name; none without a home directory. -/
def directories? (e : Environment) (name : String) : Option Directories :=
  e.home.map fun home =>
    let own : Path := ⟨directoryName name⟩
    { config := (placeOf e.configHome home ".config").join own
      data := (placeOf e.dataHome home ".local/share").join own
      cache := (placeOf e.cacheHome home ".cache").join own }

/-- The directory for data of this program, or the given one without a home directory. -/
def dataDirectory (e : Environment) (fallback : Path) : Path :=
  ((e.directories? programName).map Directories.data).getD fallback

def configPath (e : Environment) : Path :=
  ((e.directories? programName).map fun d => d.config.join ⟨"config.toml"⟩).getD ⟨"rigging.toml"⟩

end Environment

end PackHost.Config
