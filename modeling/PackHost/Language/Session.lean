import PackHost.Failure
import PackHost.Value

/-!
# Sessions

The evaluation of a script as its host sees it. A session looks at the memory that evaluations
share, changes it, and makes calls of names that no function of the script has; what becomes of such
a call is decided outside. Between two of these steps it may compute anything.
-/

namespace PackHost

/-- What a function that the host has registered answers to a script. -/
inductive Answer (δ : Type) where
  | value (d : δ)
  /-- A text is raised, as scripts raise values. -/
  | raised (message : String)
  /-- The function fails for a reason that is not the script's. -/
  | system (function message : String)
  | crashed (message : Option String)

/-- What becomes of a call. -/
inductive Response (δ : Type) where
  /-- A registered function answers; `taken` says whether its arguments are taken away. -/
  | answered (a : Answer δ) (taken : Bool)
  /-- The language is to call a function of its own. -/
  | own
  /-- A registered function would be called, but the first argument must not be changed. -/
  | fixed
  | missing

/-- An evaluation with memory `μ` and values `δ` that ends with a result. -/
inductive Session (μ δ α : Type) : Type where
  | done (a : α)
  /-- No result within the bound on its length. -/
  | stuck
  | look (next : μ → Session μ δ α)
  | change (f : μ → μ) (next : Session μ δ α)
  | call (name : String) (fixed : Bool) (args : List δ) (next : Response δ → Session μ δ α)
  /-- An error that was on its way out goes no further. -/
  | caught (next : Session μ δ α)

namespace Session

variable {μ δ α β : Type}

def bind : Session μ δ α → (α → Session μ δ β) → Session μ δ β
  | .done a, k => k a
  | .stuck, _ => .stuck
  | .look next, k => .look fun m => (next m).bind k
  | .change f next, k => .change f (next.bind k)
  | .call name fixed args next, k => .call name fixed args fun r => (next r).bind k
  | .caught next, k => .caught (next.bind k)

instance : Monad (Session μ δ) where
  pure := .done
  bind := bind

instance : Inhabited (Session μ δ α) := ⟨.stuck⟩

/-- Runs a body again and again, at most the given number of times, until it leaves with a
result. -/
def iterate {σ : Type} (body : σ → Session μ δ (σ ⊕ α)) : Nat → σ → Session μ δ α
  | 0, _ => .stuck
  | n + 1, s =>
    match body s with
    | .done (.inl s') => iterate body n s'
    | .done (.inr a) => .done a
    | p => p.bind fun
      | .inl s' => iterate body n s'
      | .inr a => .done a

theorem iterate_succ {σ : Type} (body : σ → Session μ δ (σ ⊕ α)) (n : Nat) (s : σ) :
    iterate body (n + 1) s = (body s).bind fun
      | .inl s' => iterate body n s'
      | .inr a => .done a := by
  rw [iterate]
  split
  · next h => rw [h]; rfl
  · next h => rw [h]; rfl
  · rfl

end Session

end PackHost
