import PackHost.Engine.Basic
import PackHost.Language.Basic
import PackHost.World.Ledger

/-!
# Contexts of a language

What the host does with a language: it registers functions, hands values over and takes them back,
lets functions of scripts be called later, and keeps a context in which the scripts of a pack run
one after another. A context keeps the variables of its scripts, even of those that failed, and the
functions of those that did not.
-/

namespace PackHost

/-! ## Functions for scripts -/

/-- What a context is made of once and for all. -/
structure Kit extends Rules where
  functions : Table Function
  /-- Names under which a function is registered that always fails. -/
  stubs : List String

/-- A function that is registered with the language. It takes values of any types. -/
inductive Registered where
  | host (f : Function)
  | stub
deriving DecidableEq, Repr

/-- What a call is found to be a call of. -/
inductive Target where
  | registered (r : Registered)
  | own
  | missing
deriving DecidableEq, Repr

namespace Kit

/-- The most arguments of a function that takes any number of them. -/
def mostArguments : Nat := 4

def accepts (f : Function) (count : Nat) : Bool :=
  match f.arity with
  | some n => count == n
  | none => count ≤ mostArguments

/-- What is registered under the name for so many arguments. -/
def registered? (k : Kit) (name : String) (count : Nat) : Option Registered :=
  match (k.functions.get? name).filter fun f => accepts f count with
  | some f => some (.host f)
  | none => if k.stubs.contains name && count ≤ mostArguments then some .stub else none

/-- What a call is found to be a call of: first a function for just the types of the arguments, be
it registered (which is so without arguments only) or one of the language, and then a function for
any types. -/
def target (L : Language) (k : Kit) (name : String) (args : List L.Datum) : Target :=
  let registered := (k.registered? name args.length).map .registered
  let exact := if args.isEmpty then registered else none
  let own (found : Bool) : Option Target := if found then some .own else none
  (((exact.or (own (L.builtin name args))).or registered).or
    (own (L.general name args.length))).getD .missing

end Kit

namespace Language

variable {L : Language} {ω γ : Type}

/-- A function of a script as the host calls it: where it is found, and the tree whose functions it
can call, if its context has run one. -/
structure Callback (L : Language) where
  kit : Kit
  tree : Option L.Tree
  slot : Option Nat
  pointer : L.Pointer

/-- Where the state of the host keeps what belongs to the language: its memory, and for each context
that has run a script the tree that it ran last. -/
structure Port (L : Language) (ω γ : Type) where
  memory : Part ω L.Memory
  trees : Part ω (Array L.Tree)
  /-- A function of a script as one of the host. -/
  wrap : L.Callback → γ

/-- What makes functions of scripts callable: a kit, and the place of the last tree. -/
structure Binder where
  kit : Kit
  slot : Option Nat

/-- What a script gets as the answer of a function of the host. -/
def answerOf (f : Function) : Outcome Value → Answer L.Datum
  | .done v => .value (L.encode v)
  | .failed e => if e.isScriptLevel then .raised e.message else .system f.name e.message
  | .crashed message => .crashed message

/-- The answer to every call of a name that is kept from scripts. -/
def refusal (name : String) : Answer L.Datum :=
  .raised ("'" ++ name ++ "' is not available to scripts")

/-- What comes of a call of a name. -/
inductive Upshot where
  | returned (f : Function) (args : List Value) (ended : Outcome Value)
  | refused
  | own
  | fixed
  | missing

def Upshot.response (L : Language) (name : String) : Upshot → Response L.Datum
  | .returned f _ ended => .answered (answerOf f ended) true
  | .refused => .answered (refusal name) false
  | .own => .own
  | .fixed => .fixed
  | .missing => .missing

namespace Port

variable (p : Port L ω γ) (b : Binder)

/-- A function of a script as a value of the host, bound to the tree that its context ran last. -/
def bind (f : L.Pointer) : Program ω γ Value :=
  .get fun w =>
    let tree := b.slot.bind fun i => (p.trees.get w)[i]?
    .create (L.pointerName f) none (p.wrap ⟨b.kit, tree, b.slot, f⟩) fun g => .done (.function g)

/-- A value as the host sees it, by tests on its type. What passes none of them becomes text. -/
def decode (d : L.Datum) : Program ω γ Value :=
  match L.test .unit d with
  | some _ => .done .unit
  | none =>
  match L.test .bool d with
  | some b => .done (.bool b)
  | none =>
  match L.test .int d with
  | some i => .done (.int i)
  | none =>
  match L.test .float d with
  | some x => .done (.float x)
  | none =>
  match L.test .text d with
  | some s => .done (.text s)
  | none =>
  match _harray : L.test .array d with
  | some ds =>
    (Program.each (fun (e : { e // e ∈ (ds : List L.Datum) }) => decode e.1)
      (List.attach ds)).bind fun vs =>
      .done (.array vs)
  | none =>
  match _hmap : L.test .map d with
  | some es =>
    (Program.each (fun (e : { e // e ∈ (es : List (String × L.Datum)) }) =>
      (decode e.1.2).bind fun v => .done (e.1.1, v)) (List.attach es)).bind fun vs => .done (.map vs)
  | none =>
  match L.test .pointer d with
  | some f => p.bind b f
  | none =>
  match L.test .host d with
  | some f => .done (.function f)
  | none => .done (.text (L.shown d))
termination_by L.rank d
decreasing_by
  · exact L.rank_item _harray e.1 e.2
  · exact L.rank_entry _hmap e.1 e.2

/-- Makes a call. A registered function is not called where the first argument must not be changed,
because it could change it. -/
def respond (name : String) (fixed : Bool) (args : List L.Datum) : Program ω γ Upshot :=
  match b.kit.target L name args with
  | .registered r =>
    if fixed then .done .fixed
    else
      match r with
      | .host f =>
        (Program.each (p.decode b) args).bind fun vs =>
          .call f vs fun ended => .done (.returned f vs ended)
      | .stub => .done .refused
  | .own => .done .own
  | .missing => .done .missing

/-- What a session does to the world. -/
def play {α : Type} : Session L.Memory L.Datum α → Program ω γ α
  | .done a => .done a
  | .stuck => .stuck
  | .look next => .get fun w => play (next (p.memory.get w))
  | .change f next => (p.memory.modify f).bind fun () => play next
  | .call name fixed args next =>
    (p.respond b name fixed args).bind fun u => play (next (u.response L name))
  | .caught next => play next

/-- What the host gets of an evaluation. -/
def outcome : Ended L.Datum L.Datum → Program ω γ (Outcome Value)
  | .value d => (p.decode b d).bind fun v => .done (.done v)
  | .failed e => .done (.failed (L.failureOf e))
  | .crashed message => .done (.crashed message)

end Port

namespace Callback

/-- The most arguments that the host may give. -/
def mostArguments : Nat := 3

/-- What a function of a script does when the host calls it. -/
def perform (p : Port L ω γ) (c : L.Callback) : Native ω γ := fun args =>
  match c.tree with
  | none => .done (.failed (.host "script callback outlived its context"))
  | some t =>
    if mostArguments < args.length then
      .done (.failed (.host ("script callbacks take at most 3 arguments, got " ++
        toString args.length)))
    else
      let binder : Binder := ⟨c.kit, c.slot⟩
      (p.play binder (L.call c.kit.toRules t c.pointer (L.encodeAll args))).bind (p.outcome binder)

end Callback

/-- A context: what it is made of, its variables, what is kept of the scripts that ran to their end,
and the place of the tree that it ran last. -/
structure Context (L : Language) where
  kit : Kit
  scope : L.Scope
  shared : L.Tree
  slot : Option Nat

namespace Context

/-- The words among the names that are kept from scripts for which no function is registered. -/
def keptWords : List String := ["print", "debug", "eval", "import", "export"]

/-- The functions and variables after one more entry of a namespace. -/
def install (L : Language) (s : Table Function × L.Scope) (e : String × Global) :
    Table Function × L.Scope :=
  match e.2.value with
  | .function f => (s.1.insert e.1 f, s.2)
  | v => (s.1, L.push e.1 e.2.constant (L.encode v) s.2)

/-- A fresh context. Names that are kept from scripts are left out of the namespace. -/
def ofSpec (L : Language) (limits : Limits) (spec : ContextSpec) : Context L :=
  let globals : Table Global := spec.globals.filter fun e => !spec.restriction.contains e.1
  let installed := globals.foldl (install L) (([] : Table Function), L.noVariables)
  let stubs := spec.restriction.names.filter fun n =>
    !keptWords.contains n && !installed.1.contains n
  ⟨⟨⟨spec.restriction.names, limits⟩, installed.1, stubs⟩, installed.2, L.empty, none⟩

def has (c : Context L) (name : String) : Bool :=
  L.contains c.scope name || c.kit.functions.contains name ||
    (L.functions c.shared).any fun r => L.routineName r == name

/-- The names that stand for something, in ascending order. -/
def names (c : Context L) : List String :=
  sortedNames (L.variableNames c.scope ++ Table.names c.kit.functions ++
    (L.functions c.shared).map L.routineName)

variable (p : Port L ω γ)

/-- The value under a name: of a variable, or a function of the host. -/
def global (c : Context L) (name : String) : Program ω γ (Option Value) :=
  let binder : Binder := ⟨c.kit, c.slot⟩
  match L.find? c.scope name with
  | some (.own d) => (p.decode binder d).bind fun v => .done (some v)
  | some (.shared read) =>
    .get fun w => (p.decode binder (read (p.memory.get w))).bind fun v => .done (some v)
  | none => .done ((c.kit.functions.get? name).map .function)

/-- Says which tree runs next; the answer is its place. -/
def announce (c : Context L) (t : L.Tree) : Program ω γ Nat :=
  .get fun w =>
    let trees := p.trees.get w
    match c.slot with
    | some i => .set (p.trees.put (trees.setIfInBounds i t) w) (.done i)
    | none => .set (p.trees.put (trees.push t) w) (.done trees.size)

/-- The context after the run of a tree. Only the functions of a script that ran to its end are
kept, and no statements. -/
def after (c : Context L) (t : L.Tree) (slot : Nat) (r : Ended L.Datum Unit × L.Scope) :
    Context L :=
  let ran : Context L := { c with scope := r.2, slot := some slot }
  match r.1 with
  | .value () => { ran with shared := L.combine c.shared (L.functionsOnly t) }
  | _ => ran

/-- Runs a text. A text that is no script changes nothing. -/
def run (c : Context L) (location text : String) : Program ω γ (Outcome Unit × Context L) :=
  match L.compile c.kit.off text with
  | .error f => .done (.failed (.compile f.message f.line), c)
  | .ok t =>
    let runnable := L.merge c.shared t
    (c.announce p runnable).bind fun slot =>
      (p.play ⟨c.kit, some slot⟩ (L.run c.kit.toRules location runnable c.scope)).bind fun r =>
        .done (L.outcomeOf r.1, c.after t slot r)

end Context

/-- The engine for scripts in a language. -/
def engine (p : Port L ω γ) (limits : Limits) : Engine ω γ (Context L) where
  name := "rhai"
  extension := "rhai"
  create spec := .ok (.ofSpec L limits spec)
  run := Context.run p
  has := Context.has
  global := Context.global p
  names := Context.names

end Language

end PackHost
