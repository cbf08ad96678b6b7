import PackHost.Proofs.Source.Step

/-!
# What a pass knows about the source

The open brackets, the marks of `switch` bodies and the place of a dot depend on the lexemes that
were read and not on what was written for them: `Control`, kept by every step (`Control.step`).
-/

namespace PackHost.Source

/-- The character directly in front of what comes next is a dot. -/
def EndsInDot (ls : List Lexeme) : Prop := (sources ls).getLast? = some '.'

instance (ls : List Lexeme) : Decidable (EndsInDot ls) :=
  inferInstanceAs (Decidable ((sources ls).getLast? = some '.'))

/-- The character directly in front of what comes next may be part of a word. -/
def EndsInWord (ls : List Lexeme) : Prop := (sources ls).getLast?.any isWordPart = true

instance (ls : List Lexeme) : Decidable (EndsInWord ls) :=
  inferInstanceAs (Decidable ((sources ls).getLast?.any isWordPart = true))

/-- A `switch` that names no member stands somewhere before, and no brace was opened since. -/
def AfterSwitch (ls : List Lexeme) : Prop :=
  ∃ k m, ls = k ++ .word "switch".toList :: m ∧ ¬ EndsInDot k ∧ .opening '{' ∉ m

/-- The innermost open bracket is the first brace after a `switch`. -/
def InMarked (ls : List Lexeme) : Prop :=
  ∃ p q, ls = p ++ .opening '{' :: q ∧ Nested q ∧ AfterSwitch p

theorem not_afterSwitch_nil : ¬ AfterSwitch [] := by
  rintro ⟨k, m, h, -, -⟩
  simp at h

theorem afterSwitch_concat {ls : List Lexeme} {l : Lexeme} :
    AfterSwitch (ls ++ [l]) ↔
      (AfterSwitch ls ∧ l ≠ .opening '{') ∨ (Scan.isSwitch l ∧ ¬ EndsInDot ls) := by
  constructor
  · rintro ⟨k, m, h, hk, hm⟩
    rcases List.eq_nil_or_concat' m with rfl | ⟨m, l', rfl⟩
    · obtain ⟨rfl, hl⟩ := List.append_inj' h rfl
      obtain rfl := List.singleton_inj.mp hl
      exact .inr ⟨beq_self_eq_true _, hk⟩
    · rw [← List.cons_append, ← List.append_assoc] at h
      obtain ⟨rfl, hl⟩ := List.append_inj' h rfl
      obtain rfl := List.singleton_inj.mp hl
      simp only [List.mem_append, List.mem_singleton, not_or] at hm
      exact .inl ⟨⟨k, m, rfl, hk, hm.1⟩, fun heq => hm.2 heq.symm⟩
  · rintro (⟨⟨k, m, rfl, hk, hm⟩, hl⟩ | ⟨hl, hdot⟩)
    · refine ⟨k, m ++ [l], by simp, hk, ?_⟩
      simp only [List.mem_append, List.mem_singleton, not_or]
      exact ⟨hm, fun heq => hl heq.symm⟩
    · obtain rfl := eq_of_beq hl
      exact ⟨ls, [], rfl, hdot, List.not_mem_nil⟩

/-- The given brackets, innermost first, are those that the lexemes leave open, and those of them
are marked that are the first brace after a `switch`. -/
inductive Enclosed : List OpenBracket → List Lexeme → Prop
  | ground {q : List Lexeme} : Nested q → Enclosed [] q
  | level {b : OpenBracket} {stack : List OpenBracket} {p q : List Lexeme} : Enclosed stack p →
      (b.isSwitchBody = true ↔ b.bracket = '{' ∧ AfterSwitch p) → Nested q →
      Enclosed (b :: stack) (p ++ .opening b.bracket :: q)

theorem Enclosed.append {stack : List OpenBracket} {ls q : List Lexeme} (h : Enclosed stack ls)
    (hq : Nested q) : Enclosed stack (ls ++ q) := by
  cases h with
  | ground h => exact .ground (h.append hq)
  | level h hmark hin =>
    rw [List.append_assoc, List.cons_append]
    exact .level h hmark (hin.append hq)

/-- The state of the pass after the given lexemes, as far as it does not depend on what was
written for them. -/
structure Control (ls : List Lexeme) (s : Scan) : Prop where
  enclosed : Enclosed s.stack ls
  pending : s.switchPending = true ↔ AfterSwitch ls
  dot : s.afterDot = true ↔ EndsInDot ls

namespace Control

variable {ls : List Lexeme} {l : Lexeme} {s s' : Scan} {p : Position} {rest : List Char}

theorem start : Control [] Scan.start where
  enclosed := .ground .nil
  pending := ⟨fun h => absurd h Bool.false_ne_true, fun h => absurd h not_afterSwitch_nil⟩
  dot := by simp [Scan.start, Scan.afterDot, EndsInDot]

/-- The last character tells members apart, in the source and in what was written alike. -/
theorem dot_step (hl : l.source ≠ []) (h : s.step p rest l = .ok s') :
    s'.afterDot = true ↔ EndsInDot (ls ++ [l]) := by
  have hhead := Scan.head_step (Q := (· == '.')) rfl rfl rfl hl h
  unfold Scan.afterDot EndsInDot
  rw [getLast?_sources_concat hl]
  cases hout : s'.out.head? <;> cases hend : l.source.getLast? <;> simp_all

/-- **Every step keeps what the pass knows about the source.** -/
theorem step (hc : Control ls s) (hl : l.source ≠ []) (h : s.step p rest l = .ok s') :
    Control (ls ++ [l]) s' := by
  have hdot : s'.afterDot = true ↔ EndsInDot (ls ++ [l]) := dot_step hl h
  cases l with
  | opening b =>
    cases h
    refine ⟨?_, ?_, hdot⟩
    · refine .level (b := ⟨b, p, _, _⟩) hc.enclosed ?_ .nil
      simp [hc.pending]
    · rw [afterSwitch_concat]
      simp [Scan.openBracket, Scan.isSwitch, hc.pending]
  | closing c =>
    obtain ⟨b, stack, hstack, rfl, rfl⟩ := Scan.step_closing.mp h
    refine ⟨?_, ?_, hdot⟩
    · have henc := hc.enclosed
      rw [hstack] at henc
      cases henc with
      | level houter _ hin =>
        rw [List.append_assoc]
        exact houter.append (.group hin .nil)
    · rw [afterSwitch_concat]
      simp [Scan.isSwitch, hc.pending]
  | arrow =>
    cases h
    obtain ⟨hstack, hpending, -⟩ := s.arrow_rest
    refine ⟨?_, ?_, hdot⟩
    · rw [hstack]
      exact hc.enclosed.append (.singleton rfl)
    · rw [hpending, afterSwitch_concat]
      simp [Scan.isSwitch, hc.pending]
  | _ =>
    obtain ⟨t, -, rfl⟩ := Scan.step_leaf rfl (by rintro ⟨⟩) h
    refine ⟨hc.enclosed.append (.singleton rfl), ?_, hdot⟩
    rw [afterSwitch_concat]
    simp [Scan.copy, hc.pending, ← hc.dot]

theorem feed {tail : List Char} {ms : List Lexeme} (hc : Control ls s)
    (hm : ∀ l ∈ ms, l.source ≠ []) (h : s.feed p tail ms = .ok s') : Control (ls ++ ms) s' := by
  induction ms generalizing ls s p with
  | nil =>
    cases h
    simpa using hc
  | cons l ms ih =>
    obtain ⟨hl, hms⟩ := List.forall_mem_cons.mp hm
    obtain ⟨m, hstep, hfeed⟩ := Scan.feed_cons_eq_ok.mp h
    have := ih (hc.step hl hstep) hms hfeed
    rwa [List.append_assoc, List.singleton_append] at this

/-- The innermost bracket is marked exactly if it is the first brace after a `switch`. -/
theorem inSwitch_iff (hc : Control ls s) : s.inSwitch = true ↔ InMarked ls := by
  have henc := hc.enclosed
  unfold Scan.inSwitch
  generalize s.stack = stack at henc
  cases henc with
  | ground hn =>
    simp only [List.head?_nil, Option.map_none, Option.getD_none, Bool.false_eq_true, false_iff]
    rintro ⟨p, q, rfl, hq, -⟩
    exact Nested.not_opening hq hn
  | @level b stack p q _ hmark hq =>
    simp only [List.head?_cons, Option.map_some, Option.getD_some, hmark]
    constructor
    · rintro ⟨hb, hp⟩
      exact ⟨p, q, by rw [hb], hq, hp⟩
    · rintro ⟨p', q', heq, hq', hp'⟩
      obtain ⟨rfl, hb, -⟩ := Nested.innermost_unique heq hq hq'
      exact ⟨hb, hp'⟩

end Control

theorem InPlace.source_ne_nil {ls : List Lexeme} (h : InPlace ls) : ∀ l ∈ ls, l.source ≠ [] := by
  induction ls with
  | nil => exact fun l hl => absurd hl List.not_mem_nil
  | cons l ls ih => exact List.forall_mem_cons.mpr ⟨h.1.source_ne_nil, ih h.2⟩

end PackHost.Source
