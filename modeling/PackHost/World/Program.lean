import PackHost.Failure
import PackHost.Value

/-!
# Programs

What a function of the host, a handler or an engine does, as seen from outside: it asks the world
for something, gets the answer, and goes on. Between two requests it may compute anything. `ω` is
the state of the program that embeds the library, `γ` says what the functions are that engines
create.
-/

namespace PackHost

/-- What can be asked of the event bus of a desk. -/
inductive BusRequest where
  /-- A new handler of the host; the answer is its number. -/
  | listen (event : String) (handler : Function)
  /-- To forget registrations; the answer is how many there were. -/
  | remove (ids : List Nat)
  | clear
  | count (event : String)
  /-- To run the handlers of the event; the answer is how many ran. -/
  | post (event : String) (payload : Value)

/-- A computation that asks the world for what it needs. -/
inductive Program (ω γ α : Type) : Type where
  | done (a : α)
  | stuck
  | get (next : ω → Program ω γ α)
  | set (w : ω) (next : Program ω γ α)
  /-- A call; the answer is how it ended. -/
  | call (f : Function) (args : List Value) (next : Outcome Value → Program ω γ α)
  /-- A new function of an engine; the answer is its handle. -/
  | create (name : String) (arity : Option Nat) (code : γ) (next : Function → Program ω γ α)
  | bus (desk : Nat) (request : BusRequest) (next : Nat → Program ω γ α)

namespace Program

variable {ω γ α β : Type}

def bind : Program ω γ α → (α → Program ω γ β) → Program ω γ β
  | .done a, k => k a
  | .stuck, _ => .stuck
  | .get next, k => .get fun w => (next w).bind k
  | .set w next, k => .set w (next.bind k)
  | .call f args next, k => .call f args fun r => (next r).bind k
  | .create name arity code next, k => .create name arity code fun f => (next f).bind k
  | .bus desk request next, k => .bus desk request fun n => (next n).bind k

instance : Monad (Program ω γ) where
  pure := .done
  bind := bind

instance : Inhabited (Program ω γ α) := ⟨.stuck⟩

def modify (f : ω → ω) : Program ω γ Unit := .get fun w => .set (f w) (.done ())

def forward (f : Function) (args : List Value) : Program ω γ (Outcome Value) :=
  .call f args .done

def each (f : α → Program ω γ β) : List α → Program ω γ (List β)
  | [] => .done []
  | a :: as => (f a).bind fun b => (each f as).bind fun bs => .done (b :: bs)

theorem bind_done (p : Program ω γ α) : p.bind .done = p := by
  induction p with
  | done => rfl
  | stuck => rfl
  | get next ih => simp [bind, ih]
  | set w next ih => simp [bind, ih]
  | call f args next ih => simp [bind, ih]
  | create name arity code next ih => simp [bind, ih]
  | bus desk request next ih => simp [bind, ih]

theorem bind_assoc {δ : Type} (p : Program ω γ α) (k : α → Program ω γ β)
    (l : β → Program ω γ δ) : (p.bind k).bind l = p.bind fun a => (k a).bind l := by
  induction p with
  | done => rfl
  | stuck => rfl
  | get next ih => simp [bind, ih]
  | set w next ih => simp [bind, ih]
  | call f args next ih => simp [bind, ih]
  | create name arity code next ih => simp [bind, ih]
  | bus desk request next ih => simp [bind, ih]

end Program

abbrev Native (ω γ : Type) := List Value → Program ω γ (Outcome Value)

end PackHost
