import PackHost.Config.Settings
import PackHost.Number.Decimal
import PackHost.Text.Quoted
import PackHost.Toml.Value

/-!
# Reading settings from values

Settings are read from a table by the names of their fields, or from an array by their order.
Unknown keys are passed over, missing fields keep their defaults, and the first value that does not
fit, in the order of the file, is reported.
-/

namespace PackHost.Config

/-- Why a value is not what it should be. -/
inductive Mismatch where
  | sort (found : Toml.Value) (wanted : String)
  | range (n : Int) (wanted : String)
  | length (found : Nat) (wanted : String)
  | missing (field : String)
  | choice (found : String) (known : List String)
  | choiceCount (found : Nat)
  | choiceSort
  | payloadSort (found : Toml.Value)
  | payloadFilled (found : Toml.Value)

namespace Mismatch

/-- The sort of a value, with the value if it has no parts. -/
def sortText : Toml.Value → String
  | .text s => "string " ++ Text.quoted s
  | .integer n => "integer `" ++ toString n ++ "`"
  | .float x =>
    let body := plainFloatText x
    "floating point `" ++ (if x.isFinite then withPoint body else body) ++ "`"
  | .boolean b => "boolean `" ++ (if b then "true" else "false") ++ "`"
  | .array _ => "sequence"
  | .table _ | .datetime _ => "map"

def message : Mismatch → String
  | .sort found wanted => "invalid type: " ++ sortText found ++ ", expected " ++ wanted
  | .range n wanted => "invalid value: integer `" ++ toString n ++ "`, expected " ++ wanted
  | .length found wanted => "invalid length " ++ toString found ++ ", expected " ++ wanted
  | .missing field => "missing field `" ++ field ++ "`"
  | .choice found known =>
    "unknown variant `" ++ found ++ "`, expected one of " ++
      ", ".intercalate (known.map fun k => "`" ++ k ++ "`")
  | .choiceCount 0 => "wanted exactly 1 element, found 0 elements"
  | .choiceCount _ => "wanted exactly 1 element, more than 1 element"
  | .choiceSort => "wanted string or table"
  | .payloadSort found => "expected table, found " ++ found.typeName
  | .payloadFilled found => "expected empty " ++ found.typeName

end Mismatch

abbrev Decoder (α : Type) := Toml.Value → Except Mismatch α

namespace Decoder

variable {α : Type}

def boolean : Decoder Bool
  | .boolean b => .ok b
  | v => .error (.sort v "a boolean")

/-- A number that is not negative; `wanted` is the name of its type. -/
def natural (wanted : String) : Decoder Nat
  | .integer n => if 0 ≤ n then .ok n.toNat else .error (.range n wanted)
  | v => .error (.sort v wanted)

def text : Decoder String
  | .text s => .ok s
  | v => .error (.sort v "a string")

def path : Decoder Files.Path
  | .text s => .ok ⟨s⟩
  | v => .error (.sort v "path string")

def items (item : Decoder α) : List Toml.Value → Except Mismatch (List α)
  | [] => .ok []
  | v :: vs => do
    let a ← item v
    return a :: (← items item vs)

def list (item : Decoder α) : Decoder (List α)
  | .array vs => items item vs
  | v => .error (.sort v "a sequence")

def entries (item : Decoder α) : List (String × Toml.Value) → Except Mismatch (List (String × α))
  | [] => .ok []
  | e :: es => do
    let a ← item e.2
    return (e.1, a) :: (← entries item es)

def table (item : Decoder α) : Decoder (Table α) := fun v =>
  match v.entries? with
  | some es => Table.ofPairs <$> entries item es
  | none => .error (.sort v "a map")

def kindOfName (name : String) : Except Mismatch ScriptKind :=
  match ScriptKind.all.find? fun k => k.name == name with
  | some k => .ok k
  | none => .error (.choice name (ScriptKind.all.map ScriptKind.name))

def nothing : Decoder Unit
  | .table es => if es.isEmpty then .ok () else .error (.payloadFilled (.table es))
  | .array vs => if vs.isEmpty then .ok () else .error (.payloadFilled (.array vs))
  | v => .error (.payloadSort v)

/-- A kind of scripts: its name, or a table with its name as the only key. -/
def kind : Decoder ScriptKind
  | .text name => kindOfName name
  | .table [(name, v)] => do
    let k ← kindOfName name
    nothing v
    return k
  | .table es => .error (.choiceCount es.length)
  | _ => .error .choiceSort

/-- A field: its name and what a value under it does to what has been read so far. -/
abbrev Field (σ : Type) := String × (Toml.Value → σ → Except Mismatch σ)

/-- A field that `read` reads and `set` stores. -/
def field {σ : Type} (name : String) (read : Decoder α) (set : α → σ → σ) : Field σ :=
  (name, fun v s => (set · s) <$> read v)

/-- Reads the entries of a table into fields; unknown keys are passed over. -/
def byName {σ : Type} (fields : List (Field σ)) : List (String × Toml.Value) → σ → Except Mismatch σ
  | [], s => .ok s
  | e :: es, s =>
    match fields.lookup e.1 with
    | some store => store e.2 s >>= byName fields es
    | none => byName fields es s

/-- Reads the items of an array into fields; further items are passed over. -/
def byPlace {σ : Type} : List (Field σ) → List Toml.Value → σ → Except Mismatch σ
  | f :: fs, v :: vs, s => f.2 v s >>= byPlace fs vs
  | _, _, s => .ok s

/-- A record: a table of its fields, or an array of them in order. -/
def record {σ : Type} (wanted : String) (fields : List (Field σ)) (start : σ) : Decoder σ := fun v =>
  match v.entries?, v with
  | some es, _ => byName fields es start
  | none, .array vs => byPlace fields vs start
  | none, v => .error (.sort v wanted)

def packSettings : Decoder PackSettings :=
  record "struct PackConfig"
    [field "enabled" boolean fun b s => { s with enabled := b },
      field "description" text fun d s => { s with description := some d }] .default

/-- A further pack; both of its fields must be there. -/
def extraPack : Decoder ExtraPack := fun v => do
  let wanted := "struct ExtraPackConfig"
  let fields : List (Field (Option ScriptKind × Option Files.Path)) :=
    [field "script_type" kind fun k s => (some k, s.2),
      field "path" path fun p s => (s.1, some p)]
  match v, ← record wanted fields (none, none) v with
  | _, (some k, some p) => return ⟨k, p⟩
  | .array vs, _ => throw (.length vs.length (wanted ++ " with 2 elements"))
  | _, (none, _) => throw (.missing "script_type")
  | _, (some _, none) => throw (.missing "path")

def settings : Decoder Settings :=
  record "struct ScriptingConfig"
    [field "enabled" boolean fun b s => { s with enabled := b },
      field "base_dir" path fun p s => { s with baseDirectory := some p },
      field "preprocess_threads" (natural "usize") fun n s => { s with threads := some n },
      field "max_operations" (natural "u64") fun n s => { s with maxOperations := n },
      field "max_call_levels" (natural "usize") fun n s => { s with maxCallLevels := n },
      field "blocked_capabilities" (list text) fun l s => { s with blocked := l },
      field "hot_reload" boolean fun b s => { s with hotReload := b },
      field "hot_reload_interval_ms" (natural "u64") fun n s => { s with hotReloadInterval := n },
      field "packs" (table packSettings) fun t s => { s with packs := t },
      field "extra_packs" (list extraPack) fun l s => { s with extraPacks := l }] .default

def file (es : List (String × Toml.Value)) : Except Mismatch Settings :=
  byName [field "scripting" settings fun s _ => s] es .default

end Decoder

end PackHost.Config
