import PackHost.Language.Context
import PackHost.Proofs.World.Ends

/-!
# The course of an evaluation

What an evaluation got for its calls, and where it caught an error, the latest first. `Session.Ends`
says what holds of the course and the result whatever the responses are; `Port.record` plays a
session and writes down how the host saw its course (`play_eq`). What holds of all courses holds of
those that the host sees (`ends_record`).
-/

namespace PackHost

/-! ## Sessions -/

inductive Happening (δ : Type) where
  | response (r : Response δ)
  | caught

/-- The response is among the happenings, and nothing was caught since. -/
def Uncaught {δ : Type} (r : Response δ) (hs : List (Happening δ)) : Prop :=
  ∃ later earlier, hs = later ++ .response r :: earlier ∧ Happening.caught ∉ later

namespace Session

variable {μ δ α β : Type}

/-- Whatever responses and memories there are, the course and the result have the property, where
the given happenings came first. -/
def Ends (Q : List (Happening δ) → α → Prop) : List (Happening δ) → Session μ δ α → Prop
  | hs, .done a => Q hs a
  | _, .stuck => True
  | hs, .look next => ∀ m, (next m).Ends Q hs
  | hs, .change _ next => next.Ends Q hs
  | hs, .call _ _ _ next => ∀ r, (next r).Ends Q (.response r :: hs)
  | hs, .caught next => next.Ends Q (.caught :: hs)

variable {hs : List (Happening δ)}

theorem Ends.imp {Q R : List (Happening δ) → α → Prop} {p : Session μ δ α} (h : p.Ends Q hs)
    (hR : ∀ hs a, Q hs a → R hs a) : p.Ends R hs := by
  induction p generalizing hs with
  | done a => exact hR hs a h
  | stuck => trivial
  | look next ih => exact fun m => ih m (h m)
  | change f next ih => exact ih h
  | call name fixed args next ih => exact fun r => ih r (h r)
  | caught next ih => exact ih h

theorem Ends.bind {Q : List (Happening δ) → α → Prop} {R : List (Happening δ) → β → Prop}
    {p : Session μ δ β} {k : β → Session μ δ α} (h : p.Ends R hs)
    (hk : ∀ hs b, R hs b → (k b).Ends Q hs) : (p.bind k).Ends Q hs := by
  induction p generalizing hs with
  | done b => exact hk hs b h
  | stuck => trivial
  | look next ih => exact fun m => ih m (h m)
  | change f next ih => exact ih h
  | call name fixed args next ih => exact fun r => ih r (h r)
  | caught next ih => exact ih h

theorem ends_iterate {σ : Type} {I : List (Happening δ) → σ → Prop}
    {Q : List (Happening δ) → α → Prop} {body : σ → Session μ δ (σ ⊕ α)}
    (h : ∀ hs s, I hs s → (body s).Ends (fun hs' x => x.elim (I hs') (Q hs')) hs) (n : Nat)
    {s : σ} (hs' : I hs s) : (iterate body n s).Ends Q hs := by
  induction n generalizing s hs with
  | zero => trivial
  | succ n ih =>
    rw [iterate_succ]
    refine (h hs s hs').bind fun later x hx => ?_
    cases x with
    | inl s' => exact ih hx
    | inr a => exact hx

end Session

/-! ## What the host sees -/

namespace Language

variable {L : Language} {ω γ : Type}

inductive Entry (L : Language) where
  | call (name : String) (args : List L.Datum) (u : Upshot)
  | caught

namespace Entry

def happening : Entry L → Happening L.Datum
  | .call name _ u => .response (u.response L name)
  | .caught => .caught

/-- The entry is in the record, and nothing was caught since. -/
def Uncaught (e : Entry L) (es : List (Entry L)) : Prop :=
  ∃ later earlier, es = later ++ e :: earlier ∧ Entry.caught ∉ later

theorem Uncaught.happening {name : String} {args : List L.Datum} {u : Upshot}
    {es : List (Entry L)} (h : Uncaught (.call name args u) es) :
    PackHost.Uncaught (u.response L name) (es.map Entry.happening) := by
  obtain ⟨later, earlier, rfl, hlater⟩ := h
  refine ⟨later.map Entry.happening, earlier.map Entry.happening, by simp [Entry.happening], ?_⟩
  rintro hcaught
  obtain ⟨e, he, hhappening⟩ := List.mem_map.mp hcaught
  cases e with
  | call => cases hhappening
  | caught => exact hlater he

theorem exists_of_uncaught {r : Response L.Datum} {es : List (Entry L)}
    (h : PackHost.Uncaught r (es.map Entry.happening)) :
    ∃ name args u, Uncaught (.call name args u) es ∧ u.response L name = r := by
  obtain ⟨later, earlier, heq, hlater⟩ := h
  obtain ⟨later', rest, rfl, rfl, hrest⟩ := List.map_eq_append_iff.mp heq
  obtain ⟨e, earlier', rfl, he, -⟩ := List.map_eq_cons_iff.mp hrest
  cases e with
  | caught => cases he
  | call name args u =>
    refine ⟨name, args, u, ⟨later', earlier', rfl, fun hcaught => hlater ?_⟩, ?_⟩
    · exact List.mem_map.mpr ⟨_, hcaught, rfl⟩
    · exact Happening.response.inj he

end Entry

def Upshot.Fits (k : Kit) (name : String) (args : List L.Datum) : Upshot → Prop
  | .returned f _ _ => k.target L name args = .registered (.host f)
  | .refused => k.target L name args = .registered .stub
  | .own => k.target L name args = .own
  | .fixed => ∃ r, k.target L name args = .registered r
  | .missing => k.target L name args = .missing

def Entry.Fits (k : Kit) : Entry L → Prop
  | .call name args u => Upshot.Fits k name args u
  | .caught => True

namespace Port

variable (p : Port L ω γ) (b : Binder) {α : Type}

/-- Plays a session and writes down its course behind what is written already. -/
def record : Session L.Memory L.Datum α → List (Entry L) → Program ω γ (List (Entry L) × α)
  | .done a, es => .done (es, a)
  | .stuck, _ => .stuck
  | .look next, es => .get fun w => record (next (p.memory.get w)) es
  | .change f next, es => (p.memory.modify f).bind fun () => record next es
  | .call name fixed args next, es =>
    (p.respond b name fixed args).bind fun u =>
      record (next (u.response L name)) (.call name args u :: es)
  | .caught next, es => record next (.caught :: es)

theorem play_eq (s : Session L.Memory L.Datum α) (es : List (Entry L)) :
    p.play b s = (p.record b s es).bind fun x => .done x.2 := by
  induction s generalizing es with
  | done a => rfl
  | stuck => rfl
  | look next ih => exact congrArg Program.get (funext fun w => ih _ es)
  | change f next ih =>
    rw [play, record, Program.bind_assoc]
    exact congrArg _ (funext fun _ => ih es)
  | call name fixed args next ih =>
    rw [play, record, Program.bind_assoc]
    exact congrArg _ (funext fun u => ih _ _)
  | caught next ih => exact ih _

theorem ends_respond (name : String) (fixed : Bool) (args : List L.Datum) :
    (p.respond b name fixed args).Ends (Upshot.Fits b.kit name args) := by
  unfold respond
  cases htarget : b.kit.target L name args with
  | registered r =>
    dsimp only
    split
    · exact ⟨r, htarget⟩
    · cases r with
      | host f => exact (Program.ends_true _).bind fun vs _ ended => htarget
      | stub => exact htarget
  | own => exact htarget
  | missing => exact htarget

/-- What holds of all courses of a session holds of what is written down. -/
theorem ends_record {Q : List (Happening L.Datum) → α → Prop} {s : Session L.Memory L.Datum α}
    {es : List (Entry L)} (h : s.Ends Q (es.map Entry.happening)) :
    (p.record b s es).Ends fun x => Q (x.1.map Entry.happening) x.2 := by
  induction s generalizing es with
  | done a => exact h
  | stuck => trivial
  | look next ih => exact fun w => ih _ (h _)
  | change f next ih => exact (Program.ends_true _).bind fun _ _ => ih h
  | call name fixed args next ih => exact (Program.ends_true _).bind fun u _ => ih _ (h _)
  | caught next ih => exact ih h

theorem fits_record (s : Session L.Memory L.Datum α) {es : List (Entry L)}
    (h : ∀ e ∈ es, e.Fits b.kit) : (p.record b s es).Ends fun x => ∀ e ∈ x.1, e.Fits b.kit := by
  induction s generalizing es with
  | done a => exact h
  | stuck => trivial
  | look next ih => exact fun w => ih _ h
  | change f next ih => exact (Program.ends_true _).bind fun _ _ => ih h
  | call name fixed args next ih =>
    exact (p.ends_respond b name fixed args).bind fun u hu =>
      ih _ (List.forall_mem_cons.mpr ⟨hu, h⟩)
  | caught next ih => exact ih (List.forall_mem_cons.mpr ⟨trivial, h⟩)

end Port

/-! ## Runs with their record -/

variable (p : Port L ω γ)

def Context.recorded (c : Context L) (location : String) (t : L.Tree) :
    Program ω γ (List (Entry L) × Outcome Unit × Context L) :=
  let runnable := L.merge c.shared t
  (c.announce p runnable).bind fun slot =>
    (p.record ⟨c.kit, some slot⟩ (L.run c.kit.toRules location runnable c.scope) []).bind fun x =>
      .done (x.1, L.outcomeOf x.2.1, c.after t slot x.2)

theorem Context.run_eq_recorded {c : Context L} {location text : String} {t : L.Tree}
    (h : L.compile c.kit.off text = .ok t) :
    c.run p location text = (c.recorded p location t).bind fun x => .done x.2 := by
  rw [run, h, recorded]
  dsimp only
  rw [Program.bind_assoc]
  refine congrArg _ (funext fun slot => ?_)
  rw [p.play_eq _ _ [], Program.bind_assoc, Program.bind_assoc]
  rfl

/-- Calls a function of a script and writes down the course of it. -/
def Callback.recorded (c : L.Callback) (t : L.Tree) (args : List Value) :
    Program ω γ (List (Entry L) × Outcome Value) :=
  let binder : Binder := ⟨c.kit, c.slot⟩
  (p.record binder (L.call c.kit.toRules t c.pointer (L.encodeAll args)) []).bind fun x =>
    (p.outcome binder x.2).bind fun r => .done (x.1, r)

theorem Callback.perform_eq_recorded {c : L.Callback} {t : L.Tree} {args : List Value}
    (htree : c.tree = some t) (hcount : args.length ≤ mostArguments) :
    c.perform p args = (c.recorded p t args).bind fun x => .done x.2 := by
  rw [perform, htree]
  dsimp only
  rw [if_neg (Nat.not_lt.mpr hcount), p.play_eq _ _ [], recorded, Program.bind_assoc,
    Program.bind_assoc]
  refine congrArg _ (funext fun x => ?_)
  rw [Program.bind_assoc]
  exact (Program.bind_done _).symm

end Language

end PackHost
