import PackHost.Language.Context
import PackHost.Script.Run

/-!
# The script engine

The language of the scripts as a `Language`, and the engine for it. Not everything that there is in
the language is here: of its functions there are a few, and a function without a name is kept where
it stands and not among the functions of a tree, since no script can write the name it would have.
-/

namespace PackHost.Script

/-! ## Values -/

namespace Datum

def make : (t : Datatype) → t.Content Datum Pointer → Datum
  | .unit, _ => .unit
  | .bool, b => .bool b
  | .int, i => .int i
  | .float, x => .float x
  | .text, s => .text s
  | .array, items => .array items
  | .map, entries => .map entries
  | .pointer, f => .pointer f.name f.routine f.cells
  | .host, f => .host f

/-- What the value is made of, if it is of the type. -/
def test : (t : Datatype) → Datum → Option (t.Content Datum Pointer)
  | .unit, .unit => some ()
  | .bool, .bool b => some b
  | .int, .int i => some i
  | .float, .float x => some x
  | .text, .text s => some s
  | .array, .array items => some items
  | .map, .map entries => some entries
  | .pointer, .pointer name routine cells => some ⟨name, routine, cells⟩
  | .host, .host f => some f
  | _, _ => none

mutual

def rank : Datum → Nat
  | .array items => rankAll items + 1
  | .map entries => rankEntries entries + 1
  | _ => 0

def rankAll : List Datum → Nat
  | [] => 0
  | d :: ds => rank d + rankAll ds

def rankEntries : List (String × Datum) → Nat
  | [] => 0
  | e :: es => rank e.2 + rankEntries es

end

theorem rank_le_rankAll {e : Datum} {ds : List Datum} (h : e ∈ ds) : rank e ≤ rankAll ds := by
  induction ds with
  | nil => cases h
  | cons d ds ih =>
    rw [rankAll]
    rcases List.mem_cons.mp h with rfl | h
    · exact Nat.le_add_right _ _
    · exact Nat.le_trans (ih h) (Nat.le_add_left _ _)

theorem rank_le_rankEntries {e : String × Datum} {es : List (String × Datum)} (h : e ∈ es) :
    rank e.2 ≤ rankEntries es := by
  induction es with
  | nil => cases h
  | cons d es ih =>
    rw [rankEntries]
    rcases List.mem_cons.mp h with rfl | h
    · exact Nat.le_add_right _ _
    · exact Nat.le_trans (ih h) (Nat.le_add_left _ _)

theorem rank_item {d : Datum} {ds : List Datum} (h : test .array d = some ds) :
    ∀ e ∈ ds, rank e < rank d := by
  cases d <;> cases h
  intro e he
  rw [rank]
  exact Nat.lt_succ_of_le (rank_le_rankAll he)

theorem rank_entry {d : Datum} {es : List (String × Datum)} (h : test .map d = some es) :
    ∀ e ∈ es, rank e.2 < rank d := by
  cases d <;> cases h
  intro e he
  rw [rank]
  exact Nat.lt_succ_of_le (rank_le_rankEntries he)

end Datum

/-! ## Calls and variables -/

namespace Builtin

/-- Whether the language has such a function that calls another one. -/
def calls (name : String) : List Datum → Bool
  | [.array _, .pointer ..] => ["map", "filter", "reduce", "sort"].contains name
  | [.array _, .pointer .., _] => name == "reduce"
  | _ => false

/-- Whether the language has a function of the name for the types of the values. The one that ends
the script takes values of any types. -/
def has (name : String) (args : List Datum) : Bool :=
  name != "exit" && (calls name args || (answer? name args).isSome)

end Builtin

def Variable.held (v : Variable) : Held Cells Datum :=
  match v.slot with
  | .own d => .own d
  | .shared cell => .shared fun cells => (cells.getD cell default).value

/-! ## The language -/

def compile (off : List String) (text : String) : Except TextFault Tree :=
  (Tree.read off text).mapError fun f => ⟨f.message, some f.place.line⟩

@[reducible] def language : Language where
  Datum := Datum
  Pointer := Pointer
  Memory := Cells
  Routine := Routine
  Statement := Stmt
  Tree := Tree
  Scope := Scope
  make := Datum.make
  test := Datum.test
  shown := Datum.shown
  rank := Datum.rank
  rank_item := Datum.rank_item
  rank_entry := Datum.rank_entry
  pointerName := Pointer.name
  routineName := Routine.name
  routineCount r := r.params.length
  compile := compile
  empty := .empty
  merge := Tree.merge
  combine := Tree.merge
  functionsOnly := Tree.functionsOnly
  functions := Tree.library
  functions_empty := rfl
  statements := Tree.body
  noVariables := []
  push name constant d s := ⟨name, constant, .own d⟩ :: s
  contains s name := (s.find? name).isSome
  find? s name := (s.find? name).map Variable.held
  variableNames s := s.map Variable.name
  builtin := Builtin.has
  general name count := name == "exit" && count ≤ 1
  run := runTree
  call := callTree
  display := display

abbrev Context := Language.Context language

abbrev Callback := language.Callback

/-- What scripts share, and the tree that was run last in each context. -/
structure Heap where
  cells : Cells
  trees : Array Tree

namespace Heap

def empty : Heap := ⟨#[], #[]⟩

end Heap

variable {ω γ : Type} (heap : Part ω Heap) (wrap : Callback → γ)

def port : language.Port ω γ where
  memory :=
    ⟨fun w => (heap.get w).cells, fun cells w => heap.put { heap.get w with cells := cells } w⟩
  trees :=
    ⟨fun w => (heap.get w).trees, fun trees w => heap.put { heap.get w with trees := trees } w⟩
  wrap := wrap

def engine (limits : Limits) : Engine ω γ Context := Language.engine (port heap wrap) limits

end PackHost.Script
