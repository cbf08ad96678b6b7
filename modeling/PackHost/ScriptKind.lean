/-!
# Kinds of scripts

A host runs three kinds of scripts, each with its own manager, directory and example.
-/

namespace PackHost

inductive ScriptKind where
  | startup
  | server
  | client
deriving DecidableEq, Repr

namespace ScriptKind

/-- All kinds, in the order in which a host boots. -/
def all : List ScriptKind := [.startup, .server, .client]

def name : ScriptKind → String
  | .startup => "startup"
  | .server => "server"
  | .client => "client"

def label : ScriptKind → String
  | .startup => "Startup"
  | .server => "Server"
  | .client => "Client"

def directoryName (k : ScriptKind) : String := k.name ++ "_scripts"

/-- The place of the kind in the order of `all`. -/
def rank : ScriptKind → Nat
  | .startup => 0
  | .server => 1
  | .client => 2

def order (a b : ScriptKind) : Ordering := compare a.rank b.rank

/-- The kind with the given name, in capitals or small letters. -/
def ofName? (text : String) : Except String ScriptKind :=
  match all.find? fun k => k.name == text.map Char.toLower with
  | some k => .ok k
  | none =>
    .error ("unknown script type '" ++ text ++ "' (expected startup, server or client)")

def exampleHead (about : String) : String :=
  "// priority: 0\n\n" ++ about ++ "\nlog(`Hello from $\x7bSCRIPT_TYPE\x7d scripts!`);\n"

def exampleTail (message : String) : String :=
  "\nonEvent(\"loaded\", (event) => \x7b\n    log(\"" ++ message ++ "\");\n\x7d);\n"

def exampleScript : ScriptKind → String
  | .startup =>
    exampleHead ("// Startup scripts run once while the host boots.\n" ++
        "// Shared state defined here is visible to later scripts in this pack.\n") ++
      "\nvar bootedAt = \"startup\";\n" ++
      exampleTail "All startup scripts have been loaded"
  | .server =>
    exampleHead
        "// Server scripts are reloaded whenever the server script directory changes.\n" ++
      "log(`One minute is $\x7bMINUTE / SECOND\x7d seconds`);\n" ++
      exampleTail "Server scripts ready"
  | .client =>
    exampleHead "// Client scripts run on the presentation side.\n" ++
      exampleTail "Client scripts ready"

end ScriptKind

end PackHost
