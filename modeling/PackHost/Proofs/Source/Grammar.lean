import PackHost.Proofs.Source.Control

/-!
# Which source texts are accepted

A source text is accepted exactly if it can be read by the lexical rules, its brackets are nested
and it loads no file by hand (`accepted_iff`). What the pass has written so far plays no part in it,
although the pass looks there for the dot in front of a member: `Control` is kept by every step.
-/

namespace PackHost.Source

/-- Whether the word may stand in front of the given text when it names no member. -/
def Allowed (text rest : List Char) : Prop :=
  text ≠ "import".toList ∧ ¬ (text = "require".toList ∧ firstVisible? rest = some '(')

/-- No `import` stands among the lexemes, and no `require` whose next visible character is an
opening parenthesis, unless the character directly in front of it is a dot. -/
def LoadsNothing (ls : List Lexeme) : Prop :=
  ∀ before text after, ls = before ++ .word text :: after → ¬ EndsInDot before →
    Allowed text (sources after)

/-- The pass over nested brackets ends, and leaves the open brackets as they were. -/
theorem Scan.exists_feed {ms before : List Lexeme} {s : Scan} (p : Position) (tail : List Char)
    (hn : Nested ms) (hc : Control before s) (hm : ∀ l ∈ ms, l.source ≠ [])
    (hw : ∀ a text b, ms = a ++ .word text :: b → ¬ EndsInDot (before ++ a) →
      Allowed text (sources b ++ tail)) :
    ∃ s', s.feed p tail ms = .ok s' ∧ s'.stack = s.stack := by
  induction hn generalizing before s p tail with
  | nil => exact ⟨s, rfl, rfl⟩
  | @leaf l ms hl _ ih =>
    have hstep : ∃ m, s.step p (sources ms ++ tail) l = .ok m := by
      by_cases hword : ∃ text, l = .word text
      · obtain ⟨text, rfl⟩ := hword
        rw [Scan.exists_step_word, or_iff_not_imp_left]
        intro hdot
        refine hw [] text ms rfl ?_
        rwa [List.append_nil, ← hc.dot]
      · exact Scan.exists_step_leaf hl fun text heq => hword ⟨text, heq⟩
    obtain ⟨hl', hms⟩ := List.forall_mem_cons.mp hm
    obtain ⟨m, hm'⟩ := hstep
    obtain ⟨s', hfeed, hstack⟩ := ih (p.advance l.source) tail (hc.step hl' hm') hms
      fun a text b heq hdot => by
        subst heq
        refine hw (l :: a) text b rfl ?_
        rwa [List.append_assoc, List.singleton_append] at hdot
    exact ⟨s', Scan.feed_cons_eq_ok.mpr ⟨m, hm', hfeed⟩, hstack.trans (Scan.stack_step hl hm')⟩
  | @group b inner ms _ _ ihi ih =>
    obtain ⟨hopen, hrest⟩ := List.forall_mem_cons.mp hm
    obtain ⟨hinner, hclose⟩ := List.forall_mem_append.mp hrest
    obtain ⟨hclosing, hms⟩ := List.forall_mem_cons.mp hclose
    let after := Lexeme.closing (closingOf b) :: ms
    -- the opening bracket, what is inside, and the closing bracket take the pass back where it was
    have hfirst : Control (before ++ [.opening b]) (s.openBracket p b) :=
      hc.step hopen (Scan.step_opening s p (sources (inner ++ after) ++ tail) b)
    obtain ⟨m, hm', hstack⟩ := ihi (p.advance (Lexeme.opening b).source) (sources after ++ tail)
      hfirst hinner fun a text c heq hdot => by
        subst heq
        have := hw (.opening b :: a) text (c ++ after) (by simp [after])
          (by rwa [List.append_assoc, List.singleton_append] at hdot)
        rwa [sources_append, List.append_assoc] at this
    have hsecond : Control (before ++ [.opening b] ++ inner) m := hfirst.feed hinner hm'
    obtain ⟨m', hm''⟩ : ∃ m', m.step ((p.advance (Lexeme.opening b).source).advance (sources inner))
        (sources ms ++ tail) (.closing (closingOf b)) = .ok m' :=
      ⟨_, Scan.step_closing.mpr ⟨_, _, hstack, rfl, rfl⟩⟩
    have hthird := hsecond.step hclosing hm''
    obtain ⟨s', hfeed, hstack'⟩ := ih _ tail hthird hms fun a text c heq hdot => by
        subst heq
        refine hw (.opening b :: (inner ++ .closing (closingOf b) :: a)) text c (by simp) ?_
        simpa using hdot
    refine ⟨s', ?_, ?_⟩
    · refine Scan.feed_cons_eq_ok.mpr ⟨_, Scan.step_opening _ _ _ _, ?_⟩
      refine Scan.feed_append_eq_ok.mpr ⟨m, hm', ?_⟩
      exact Scan.feed_cons_eq_ok.mpr ⟨m', hm'', hfeed⟩
    · obtain ⟨b', stack, hb, -, rfl⟩ := Scan.step_closing.mp hm''
      rw [hstack']
      rw [hstack] at hb
      exact (List.cons_eq_cons.mp hb).2.symm

theorem allowed_of_feed {s : Scan} {ls : List Lexeme} (hp : InPlace ls)
    (h : Scan.start.feed Position.start [] ls = .ok s) : LoadsNothing ls := by
  rintro before text after rfl hdot
  obtain ⟨m, hbefore, hafter⟩ := Scan.feed_append_eq_ok.mp h
  have hne := hp.source_ne_nil
  have hc : Control before m := by
    simpa using Control.start.feed (fun l hl => hne l (List.mem_append_left _ hl)) hbefore
  obtain ⟨m', hword, -⟩ := Scan.feed_cons_eq_ok.mp hafter
  rw [List.append_nil] at hword
  exact (Scan.exists_step_word.mp ⟨m', hword⟩).resolve_left fun h => hdot (hc.dot.mp h)

/-- **The grammar of accepted texts.** A text is accepted exactly if the lexical rules read it, so
that every comment and literal is closed, its brackets are nested, and no word loads a file. -/
theorem accepted_iff (source : String) :
    (∃ text, downlevel source = .ok text) ↔
      ∃ ls, Reads source.toList ls ∧ Nested ls ∧ LoadsNothing ls := by
  constructor
  · rintro ⟨text, h⟩
    obtain ⟨ls, s, hr, hfeed, hstack, -⟩ := downlevel_eq_ok_iff.mp h
    have hc : Control ls s := by
      simpa using Control.start.feed hr.2.source_ne_nil hfeed
    have henc := hc.enclosed
    rw [hstack] at henc
    cases henc with
    | ground hn => exact ⟨ls, hr, hn, allowed_of_feed hr.2 hfeed⟩
  · rintro ⟨ls, hr, hn, hload⟩
    have hallowed : ∀ a text b, ls = a ++ .word text :: b → ¬ EndsInDot ([] ++ a) →
        Allowed text (sources b ++ []) := fun a text b heq hdot => by
      rw [List.append_nil]
      exact hload a text b heq hdot
    obtain ⟨s, hfeed, hstack⟩ :=
      Scan.exists_feed Position.start [] hn Control.start hr.2.source_ne_nil hallowed
    exact ⟨_, downlevel_eq_ok_iff.mpr ⟨ls, s, hr, hfeed, hstack, rfl⟩⟩

end PackHost.Source
