import PackHost.Config.Decoding
import PackHost.Config.Encoding
import PackHost.Console
import PackHost.Files.Tree
import PackHost.Toml.Printer
import PackHost.Toml.Reader

/-!
# The configuration file

Loading settings from a file of a file tree, and saving them there.
-/

namespace PackHost.Config

open Files (Path Tree Trouble)

inductive LoadFault where
  | notFound (path : Path)
  | unreadable (trouble : Trouble)
  | notText
  | malformed
  | mismatch (m : Mismatch)

namespace LoadFault

/-- The message shown for the fault; the exact place of malformed text is not told. -/
def message : LoadFault → String
  | .notFound path => "config file not found: " ++ path.text
  | .unreadable trouble => "IO error reading config: " ++ trouble.message
  | .notText => "IO error reading config: stream did not contain valid UTF-8"
  | .malformed => "failed to parse config"
  | .mismatch m => m.message

end LoadFault

inductive SaveFault where
  | unwritable (trouble : Trouble)
  | tooGreat
deriving DecidableEq, Repr

namespace SaveFault

def message : SaveFault → String
  | .unwritable trouble => trouble.message
  | .tooGreat => "out-of-range value for u64 type"

end SaveFault

def target : String := "rigging_scripting_host::config::rigging_config"

def parse (bytes : ByteArray) : Except LoadFault Settings :=
  match String.fromUTF8? bytes with
  | none => .error .notText
  | some text =>
    match Toml.read text with
    | none => .error .malformed
    | some es => (Decoder.file es).mapError .mismatch

def load (t : Tree) (path : Path) : Except LoadFault (Settings × List LogEntry) :=
  if t.contains path then
    match t.read path with
    | .error trouble => .error (.unreadable trouble)
    | .ok bytes =>
      (parse bytes).map fun s => (s, [.plain .info target ("Loaded config from " ++ path.text)])
  else .error (.notFound path)

/-- Loads settings from a file; without a file nothing is set. -/
def loadOrDefault (t : Tree) (path : Path) : Except LoadFault (Settings × List LogEntry) :=
  match load t path with
  | .error (.notFound _) => .ok (.default, [])
  | r => r

/-- Saves settings to a file, with an entry for the log. The directories on the way are made before
anything else, and stay even if something is wrong. -/
def save (s : Settings) (t : Tree) (path : Path) : Tree × Except SaveFault (List LogEntry) :=
  let made := t.makeParents path
  match made.2 with
  | some trouble => (made.1, .error (.unwritable trouble))
  | none =>
    match s.entries? with
    | none => (made.1, .error .tooGreat)
    | some es =>
      match made.1.write path (Toml.write es).toUTF8 with
      | .error trouble => (made.1, .error (.unwritable trouble))
      | .ok t' => (t', .ok [.plain .info target ("Saved config to " ++ path.text)])

end PackHost.Config
