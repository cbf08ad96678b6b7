import PackHost.Proofs.World.Desk

/-!
# What acts write on a console

Of all acts only two write on the console of a desk: a script that writes a line, which the location
of the unit that is being run goes before, and the end of a handler of a script that failed, which
is reported by an error line. The main statement is `lines_replay`.
-/

namespace PackHost

variable {ω γ : Type}

namespace Listener

/-- The line that reports how a handler has ended: none, unless it is one of a script and failed. -/
def complaint? (l : Listener) (event : String) (ended : Outcome Value) : Option Line :=
  match ended, l with
  | .failed f, .script _ =>
    some ⟨.error, "Error in '" ++ event ++ "' event handler: " ++ f.message⟩
  | _, _ => none

theorem lines_settle (l : Listener) {w : World ω γ} {d : Nat} (seated : d < w.desks.size) (e : Nat)
    (event : String) (ended : Outcome Value) :
    ((l.settle e event ended w).desk d).lines =
      (if e = d then (l.complaint? event ended).toList else []) ++ (w.desk d).lines := by
  cases ended with
  | done v => simp [settle, complaint?]
  | crashed message =>
    simp only [settle, complaint?, Option.toList_none, ite_self, List.nil_append]
    rfl
  | failed f =>
    cases l with
    | host g => simp [settle, complaint?]
    | script g => exact World.lines_say seated e _ _

end Listener

namespace Act

def line? (d : Nat) (k : Desk) : Act ω γ → Option Line
  | .told e level message => if e = d then some ⟨level, k.annotate message⟩ else none
  | .left e event g ended => if e = d then g.2.complaint? event ended else none
  | _ => none

/-- Of the desk only the unit that is being run matters. -/
theorem line?_congr {k k' : Desk} (h : k'.currentUnit = k.currentUnit) (d : Nat) :
    (line? d k' : Act ω γ → Option Line) = line? d k := by
  have hannotate : k'.annotate = k.annotate := by
    funext message
    rw [Desk.annotate, Desk.annotate, h]
  funext a
  cases a <;> simp only [line?, hannotate]

theorem lines_apply (a : Act ω γ) {w : World ω γ} {d : Nat} (seated : d < w.desks.size) :
    ((a.apply w).desk d).lines = (a.line? d (w.desk d)).toList ++ (w.desk d).lines := by
  have hquiet : ∀ (e : Nat) (f : Desk → Desk), (∀ k, (f k).lines = k.lines) →
      ((w.changeDesk e f).desk d).lines = (w.desk d).lines := by
    intro e f hf
    exact World.changeDesk_induct (R := fun k k' => k'.lines = k.lines) w e (fun _ => rfl) hf d
  cases a with
  | put s => rfl
  | made code => rfl
  | listened e event l =>
    cases l with
    | host f => exact hquiet e _ fun _ => rfl
    | script f => exact hquiet e _ fun _ => rfl
  | removed e ids => exact hquiet e _ fun _ => rfl
  | cleared e => exact hquiet e _ fun _ => rfl
  | told e level message =>
    show ((w.say e level _).desk d).lines = _
    rw [World.lines_say seated, line?]
    by_cases he : e = d
    · rw [if_pos he, if_pos he, he]
      rfl
    · rw [if_neg he, if_neg he]
      rfl
  | noted entry => rfl
  | posted e event payload => rfl
  | entered e event g => rfl
  | left e event g ended =>
    show ((g.2.settle e event ended w).desk d).lines = _
    rw [Listener.lines_settle g.2 seated, line?]
    by_cases he : e = d
    · rw [if_pos he, if_pos he]
    · rw [if_neg he, if_neg he]
      rfl
  | closed e event => rfl

end Act

/-- **What acts write on a console** is a line for each act that writes one, in their order. -/
theorem lines_replay (as : List (Act ω γ)) {w : World ω γ} {d : Nat} (seated : d < w.desks.size) :
    ((replay as w).desk d).lines =
      (as.filterMap (Act.line? d (w.desk d))).reverse ++ (w.desk d).lines := by
  induction as generalizing w with
  | nil => rfl
  | cons a as ih =>
    have hgoes := a.continues w
    rw [replay_cons, ih (hgoes.1 ▸ seated), Act.line?_congr (hgoes.2 d).unit, a.lines_apply seated]
    cases h : a.line? d (w.desk d) <;> simp [h]

end PackHost
