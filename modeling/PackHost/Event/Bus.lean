import PackHost.Table
import PackHost.Text.Outline

/-!
# Event buses

Handlers are registered under the name of an event. Each registration gets a number that is never
given again, the handlers of a name stay in the order of registration, and a name without handlers
is not kept.
-/

namespace PackHost.Event

structure Bus (η : Type) where
  next : Nat
  /-- The registrations of each name, in order, with their numbers. -/
  table : Table (List (Nat × η))

namespace Bus

variable {η : Type}

def empty : Bus η := ⟨0, []⟩

instance : Inhabited (Bus η) := ⟨empty⟩

def registered (b : Bus η) (event : String) : List (Nat × η) := (b.table.get? event).getD []

/-- The handlers of a name, in order of registration. -/
def handlers (b : Bus η) (event : String) : List η := (b.registered event).map Prod.snd

/-- The bus with one more handler; its number is `b.next`. -/
def listen (b : Bus η) (event : String) (handler : η) : Bus η :=
  { next := b.next + 1
    table := b.table.insert event (b.registered event ++ [(b.next, handler)]) }

def size (b : Bus η) : Nat := b.table.foldr (fun e n => e.2.length + n) 0

def remove (b : Bus η) (ids : List Nat) : Bus η :=
  { b with
    table := (b.table.mapValues fun l => l.filter fun r => !ids.contains r.1).filter fun e =>
      !e.2.isEmpty }

/-- The bus without any handler; numbers go on. -/
def clear (b : Bus η) : Bus η := { b with table := [] }

def count (b : Bus η) (event : String) : Nat := (b.registered event).length

/-- The names with at least one handler, in ascending order. -/
def events (b : Bus η) : List String := b.table.names

def isEmpty (b : Bus η) : Bool := b.table.all fun e => e.2.isEmpty

/-- All numbers that were given so far, in ascending order. -/
def issued (b : Bus η) : List Nat := List.range b.next

/-- The number of handlers of each event, as diagnostics show it. -/
def outline (b : Bus η) : Text.Outline :=
  .record "EventBus" [("handlers",
    .table (b.table.map fun e => (Text.quoted e.1, .nat e.2.length)))]

def idOutline (id : Nat) : Text.Outline := .tuple "HandlerId" [.nat id]

end Bus

end PackHost.Event
