import PackHost.World.Call

/-!
# How programs end

What holds of the result of a program whatever the world answers, also if another program follows
(`Ends.bind`). The results that there can be are those that some answers lead to (`CanEnd`), and
every run has one of them (`canEnd_of_run`).
-/

namespace PackHost

namespace Program

variable {ω γ α β : Type}

/-- Whatever the world answers, the result of the program has the property, if there is one. -/
def Ends (Q : α → Prop) : Program ω γ α → Prop
  | .done a => Q a
  | .stuck => True
  | .get next => ∀ w, (next w).Ends Q
  | .set _ next => next.Ends Q
  | .call _ _ next => ∀ r, (next r).Ends Q
  | .create _ _ _ next => ∀ f, (next f).Ends Q
  | .bus _ _ next => ∀ n, (next n).Ends Q

theorem ends_true (p : Program ω γ α) : p.Ends fun _ => True := by
  induction p with
  | done | stuck => trivial
  | get next ih => exact ih
  | set w next ih => exact ih
  | call f args next ih => exact ih
  | create name arity code next ih => exact ih
  | bus desk request next ih => exact ih

theorem Ends.bind {Q : α → Prop} {R : β → Prop} {p : Program ω γ β} {k : β → Program ω γ α}
    (h : p.Ends R) (hk : ∀ b, R b → (k b).Ends Q) : (p.bind k).Ends Q := by
  induction p with
  | done b => exact hk b h
  | stuck => trivial
  | get next ih => exact fun w => ih w (h w)
  | set w next ih => exact ih h
  | call f args next ih => exact fun r => ih r (h r)
  | create name arity code next ih => exact fun f => ih f (h f)
  | bus desk request next ih => exact fun n => ih n (h n)

/-! ## Results that there can be -/

def CanEnd : Program ω γ α → α → Prop
  | .done b, a => b = a
  | .stuck, _ => False
  | .get next, a => ∃ w, (next w).CanEnd a
  | .set _ next, a => next.CanEnd a
  | .call _ _ next, a => ∃ r, (next r).CanEnd a
  | .create _ _ _ next, a => ∃ f, (next f).CanEnd a
  | .bus _ _ next, a => ∃ n, (next n).CanEnd a

theorem Ends.of_canEnd {Q : α → Prop} {p : Program ω γ α} {a : α} (h : p.Ends Q)
    (ha : p.CanEnd a) : Q a := by
  induction p with
  | done b => exact ha ▸ h
  | stuck => exact ha.elim
  | get next ih => exact ha.elim fun w hw => ih w (h w) hw
  | set w next ih => exact ih h ha
  | call f args next ih => exact ha.elim fun r hr => ih r (h r) hr
  | create name arity code next ih => exact ha.elim fun f hf => ih f (h f) hf
  | bus desk request next ih => exact ha.elim fun n hn => ih n (h n) hn

theorem canEnd_bind {p : Program ω γ β} {k : β → Program ω γ α} {a : α} :
    (p.bind k).CanEnd a ↔ ∃ b, p.CanEnd b ∧ (k b).CanEnd a := by
  induction p with
  | done b => exact ⟨fun h => ⟨b, rfl, h⟩, fun ⟨_, hb, h⟩ => hb ▸ h⟩
  | stuck => exact ⟨False.elim, fun ⟨_, h, _⟩ => h⟩
  | get next ih =>
    simp only [bind, CanEnd, ih, ← exists_and_right]
    exact exists_comm
  | set w next ih => exact ih
  | call f args next ih =>
    simp only [bind, CanEnd, ih, ← exists_and_right]
    exact exists_comm
  | create name arity code next ih =>
    simp only [bind, CanEnd, ih, ← exists_and_right]
    exact exists_comm
  | bus desk request next ih =>
    simp only [bind, CanEnd, ih, ← exists_and_right]
    exact exists_comm

theorem canEnd_of_run {call : Caller ω γ} {p : Program ω γ α} {w w' : World ω γ} {a : α}
    (h : runWith call p w = some (a, w')) : p.CanEnd a := by
  induction p generalizing w with
  | done b =>
    cases h
    rfl
  | stuck => cases h
  | get next ih => exact ⟨_, ih _ h⟩
  | set s next ih => exact ih h
  | call f args next ih =>
    rw [runWith] at h
    split at h
    · cases h
    · exact ⟨_, ih _ h⟩
  | create name arity code next ih => exact ⟨_, ih _ h⟩
  | bus desk request next ih =>
    rw [runWith] at h
    split at h
    · cases h
    · exact ⟨_, ih _ h⟩

theorem runWith_bind (call : Caller ω γ) (p : Program ω γ β) (k : β → Program ω γ α)
    (w : World ω γ) :
    runWith call (p.bind k) w = (runWith call p w).bind fun x => runWith call (k x.1) x.2 := by
  induction p generalizing w with
  | done b => rfl
  | stuck => rfl
  | get next ih => exact ih _ w
  | set s next ih => exact ih _
  | call f args next ih =>
    rw [bind, runWith, runWith]
    cases call f args w with
    | none => rfl
    | some r => exact ih _ _
  | create name arity code next ih => exact ih _ _
  | bus desk request next ih =>
    rw [bind, runWith, runWith]
    cases answerBus call desk w request with
    | none => rfl
    | some r => exact ih _ _

end Program

end PackHost
