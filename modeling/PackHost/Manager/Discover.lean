import PackHost.Manager.Basic

/-!
# Finding packs

A pack is a directory; its units are the files at and below it that have the extension of the
engine. A root directory that is missing is made, with an example in it.
-/

namespace PackHost.Manager

open Pack

variable {ω γ κ : Type}

def packName (m : Manager ω γ κ) (directory : Files.Path) : String :=
  directory.fileName?.getD m.plan.kind.directoryName

def settingsOf (m : Manager ω γ κ) (name : String) : PackSettings :=
  (m.plan.settings.get? name).getD .default

def letIn (t : Files.Tree) (root : Files.Path) (p : ScriptPack κ) (path : Files.Path) :
    ScriptPack κ × Option Line :=
  match ScriptFile.read t root path with
  | .ok (some file) => (p.push (.ofFile file), none)
  | .ok none => (p, some ⟨.info, "Skipping ignored script " ++ path.text⟩)
  | .error e =>
    (p, some ⟨.warn, "Failed to pre-load script file " ++ path.text ++ ": " ++ e.message⟩)

def letInAll (t : Files.Tree) (root : Files.Path) (d : Nat) :
    List Files.Path → ScriptPack κ × World ω γ → ScriptPack κ × World ω γ
  | [], s => s
  | path :: paths, (p, w) =>
    match letIn t root p path with
    | (p', none) => letInAll t root d paths (p', w)
    | (p', some line) => letInAll t root d paths (p', w.say d line.level line.text)

/-- The packs with one more, in place of an earlier one of its name. -/
def replacePack (p : ScriptPack κ) : List (ScriptPack κ) → List (ScriptPack κ)
  | [] => [p]
  | q :: qs => if q.name = p.name then p :: qs else q :: replacePack p qs

def discoverPack (m : Manager ω γ κ) (t : Files.Tree) (directory : Files.Path) (w : World ω γ) :
    Manager ω γ κ × World ω γ :=
  let name := m.packName directory
  let settings := m.settingsOf name
  if settings.enabled then
    let found := t.filesWithExtension directory m.plan.engine.extension
    let r := letInAll t directory m.desk found
      (.empty name (settings.description.getD "") directory, w)
    ({ m with packs := replacePack r.1 m.packs }, r.2)
  else
    ({ m with packs := m.packs.filter fun p => p.name ≠ name },
      w.say m.desk .info ("Skipping disabled pack " ++ name))

/-- Makes the root directory with an example in it, if it is missing. -/
def seed (m : Manager ω γ κ) (t : Files.Tree) (w : World ω γ) : Files.Tree × World ω γ :=
  let directory := m.plan.directory
  if t.contains directory then (t, w)
  else
    match t.makeDirectories directory with
    | (t', some e) =>
      (t', w.note (.plain .warn "scripting"
        ("Failed to create " ++ m.plan.kind.name ++ " script directory " ++ directory.text ++
          ": " ++ e.message)))
    | (t', none) =>
      let example_ := directory.join ⟨"script." ++ m.plan.engine.extension⟩
      match t'.write example_ m.plan.kind.exampleScript.toUTF8 with
      | .ok t'' => (t'', w)
      | .error e =>
        (t', w.note (.plain .warn "scripting"
          ("Failed to write example script " ++ example_.text ++ ": " ++ e.message)))

def discoverAll (t : Files.Tree) :
    List Files.Path → Manager ω γ κ × World ω γ → Manager ω γ κ × World ω γ
  | [], s => s
  | directory :: rest, (m, w) => discoverAll t rest (m.discoverPack t directory w)

def discover (m : Manager ω γ κ) (t : Files.Tree) (w : World ω γ) :
    Manager ω γ κ × Files.Tree × World ω γ :=
  let seeded := m.seed t w
  let r := discoverAll seeded.1 (m.plan.directory :: m.plan.extra) (m, seeded.2)
  ({ r.1 with state := .discovered }, seeded.1, r.2)

end PackHost.Manager
