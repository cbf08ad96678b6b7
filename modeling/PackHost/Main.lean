import PackHost.CommandLine.Run

/-!
# The program

Reads from the disk what a run looks at, runs, and writes back what the run made. Nothing listens
for signals or for the clock here, so a watch is stopped as soon as it begins.
-/

namespace PackHost.CommandLine

open Files (Node Path Tree)

/-- A file tree with nothing but the working directory. -/
def emptyTree : IO Tree := do
  let here : Path := ⟨(← IO.currentDir).toString⟩
  let names := here.components.filterMap fun c => match c with
    | .normal name => some name
    | _ => none
  return ⟨(Node.directory []).put names (.directory []), names, 0⟩

def readPlace (t : Tree) (p : Path) : IO Tree := do
  let file := (← IO.currentDir) / p.text
  if ← file.isDir then
    let mut t := (t.makeDirectories p).1
    for entry in ← file.walkDir do
      let path : Path := ⟨entry.toString⟩
      if ← entry.isDir then t := (t.makeDirectories path).1
      else t := t.store path (← IO.FS.readBinFile entry) 0
    return t
  if ← file.pathExists then return t.store p (← IO.FS.readBinFile file) 0
  return t

def writePlace (before after : Tree) (p : Path) : IO Unit := do
  for (path, node) in after.walk p do
    let file := (← IO.currentDir) / path.text
    match node with
    | .directory _ => if !before.contains path then IO.FS.createDirAll file
    | .file contents _ =>
      if !(before.read path).toOption.any fun old => old.data == contents.data then
        for parent in file.parent.toList do
          IO.FS.createDirAll parent
        IO.FS.writeBinFile file contents
    | .link _ => pure ()

def readEnvironment : IO Config.Environment := do
  let path (name : String) : IO (Option Path) := return (← IO.getEnv name).map (⟨·⟩)
  return ⟨← path "HOME", ← path "XDG_CONFIG_HOME", ← path "XDG_DATA_HOME", ← path "XDG_CACHE_HOME"⟩

end PackHost.CommandLine

open PackHost.CommandLine in
def main (args : List String) : IO UInt32 := do
  let e ← readEnvironment
  let start : Start := ⟨args, e, ← IO.getEnv "RUST_LOG"⟩
  let empty ← emptyTree
  let found ← match Request.read args with
    | none | some .version => pure []
    | some (.run a) => do
      let t ← readPlace empty (configPath e a)
      pure (places e a t)
  let before ← found.foldlM readPlace empty
  match run start before with
  | none => return 1
  | some r =>
    for line in r.lines do
      IO.println line
    for failure in r.failure.toList do
      IO.eprintln ("Error: " ++ failure)
    if r.exit = 2 then
      IO.eprintln "usage: rigging [-c FILE] [-b DIR] [--log-file] [-v] load [KIND...] | watch [KIND]"
    for p in found do
      writePlace before r.tree p
    return UInt32.ofNat r.exit
