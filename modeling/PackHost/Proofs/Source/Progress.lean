import Mathlib.Data.List.Induction
import PackHost.Proofs.Source.Control

/-!
# The pass in the middle of a text

`Passed before after s`: the pass has read `before`, has `after` in front of it and is in state `s`.
What holds at the start and is kept by every step holds wherever the pass is (`Passed.invariant`).
-/

namespace PackHost.Source

/-- The pass over `before`, in front of `after`, ends in the given state. -/
def Passed (before after : List Lexeme) (s : Scan) : Prop :=
  Scan.start.feed Position.start (sources after) before = .ok s

/-- What is written for `before`, in front of `after`. -/
def Written (before after : List Lexeme) (text : List Char) : Prop :=
  ∃ s, Passed before after s ∧ text = s.out.reverse

namespace Passed

variable {before after ms : List Lexeme} {l : Lexeme} {s s' : Scan}

theorem unique (h : Passed before after s) (h' : Passed before after s') : s = s' := by
  unfold Passed at h h'
  rw [h] at h'
  exact Except.ok.inj h'

theorem append_iff : Passed (before ++ ms) after s' ↔ ∃ s, Passed before (ms ++ after) s ∧
    s.feed (Position.start.advance (sources before)) (sources after) ms = .ok s' := by
  unfold Passed
  rw [Scan.feed_append_eq_ok, sources_append]

theorem concat_iff : Passed (before ++ [l]) after s' ↔ ∃ s, Passed before (l :: after) s ∧
    s.step (Position.start.advance (sources before)) (sources after) l = .ok s' := by
  rw [append_iff]
  simp only [Scan.feed_singleton, List.singleton_append]

theorem exists_init (h : Passed (before ++ ms) after s') : ∃ s, Passed before (ms ++ after) s := by
  obtain ⟨s, hs, -⟩ := append_iff.mp h
  exact ⟨s, hs⟩

theorem exists_split {final : Scan} (h : Passed (before ++ after) [] final) :
    ∃ s, Passed before after s := by
  obtain ⟨s, hs⟩ := h.exists_init
  exact ⟨s, by rwa [List.append_nil] at hs⟩

theorem exists_concat {final : Scan} (h : Passed (before ++ l :: after) [] final) :
    ∃ s, Passed (before ++ [l]) after s := by
  rw [List.append_cons] at h
  exact h.exists_split

theorem feed (h : Passed before (ms ++ after) s) (h' : Passed (before ++ ms) after s') :
    ∃ p, s.feed p (sources after) ms = .ok s' := by
  obtain ⟨m, hm, hfeed⟩ := append_iff.mp h'
  obtain rfl := h.unique hm
  exact ⟨_, hfeed⟩

theorem step (h : Passed before (l :: after) s) (h' : Passed (before ++ [l]) after s') :
    ∃ p, s.step p (sources after) l = .ok s' := by
  obtain ⟨m, hm, hstep⟩ := concat_iff.mp h'
  obtain rfl := h.unique hm
  exact ⟨_, hstep⟩

theorem arrow (h : Passed before (.arrow :: after) s) : Passed (before ++ [.arrow]) after s.arrow :=
  concat_iff.mpr ⟨s, h, rfl⟩

/-- What holds at the start and is kept by every step holds wherever the pass is. -/
theorem invariant {P : List Lexeme → List Lexeme → Scan → Prop}
    (start : ∀ ls, P [] ls Scan.start)
    (step : ∀ {before after l s s' p}, l.Stands (sources after) → P before (l :: after) s →
      s.step p (sources after) l = .ok s' → P (before ++ [l]) after s')
    (hp : InPlace (before ++ after)) (h : Passed before after s) : P before after s := by
  induction before using List.reverseRecOn generalizing after s with
  | nil =>
    cases h
    exact start after
  | append_singleton before l ih =>
    obtain ⟨m, hm, hstep⟩ := concat_iff.mp h
    rw [List.append_assoc, List.singleton_append] at hp
    exact step hp.stands (ih hp hm) hstep

theorem control (hp : InPlace (before ++ after)) (h : Passed before after s) : Control before s :=
  h.invariant (P := fun before _ s => Control before s) (fun _ => Control.start)
    (fun hl hc hstep => hc.step hl.source_ne_nil hstep) hp

theorem nested (hp : InPlace before) (h : Passed before [] s) (hs : s.stack = []) :
    Nested before := by
  have henc := (h.control (by simpa using hp)).enclosed
  rw [hs] at henc
  cases henc with
  | ground hn => exact hn

/-- The last character that was written is as good as the last one that was read; see
`head_step`. -/
theorem head {Q : Char → Bool} (bar : Q '|' = Q '>') (quotes : Q '"' = Q '\'')
    (letter : Q 't' = Q 'r') (hp : InPlace (before ++ after)) (h : Passed before after s) :
    s.out.head?.map Q = (sources before).getLast?.map Q := by
  rcases List.eq_nil_or_concat' before with rfl | ⟨before, l, rfl⟩
  · cases h
    rfl
  · obtain ⟨m, -, hstep⟩ := concat_iff.mp h
    rw [List.append_assoc, List.singleton_append] at hp
    have hl := hp.stands.source_ne_nil
    rw [Scan.head_step bar quotes letter hl hstep, getLast?_sources_concat hl]

end Passed

theorem Written.unique {before after : List Lexeme} {t t' : List Char}
    (h : Written before after t) (h' : Written before after t') : t = t' := by
  obtain ⟨s, hs, rfl⟩ := h
  obtain ⟨s', hs', rfl⟩ := h'
  rw [hs.unique hs']

/-- The pass over an accepted text comes to every place of the text. -/
theorem exists_passed {source text : String} {ls : List Lexeme} (hr : Reads source.toList ls)
    (h : downlevel source = .ok text) : ∃ s, Passed ls [] s ∧ s.stack = [] ∧
      text = String.ofList s.out.reverse := by
  obtain ⟨ls', s, hr', hfeed, hstack, rfl⟩ := downlevel_eq_ok_iff.mp h
  obtain rfl := hr.unique hr'
  exact ⟨s, hfeed, hstack, rfl⟩

end PackHost.Source
