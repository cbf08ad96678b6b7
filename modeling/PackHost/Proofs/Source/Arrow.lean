import PackHost.Proofs.Source.Tidy

/-!
# What an arrow does to the written text

An arrow looks at the written text only, and finds there what the source has in front of it: a group
of parentheses (`group_of_feed`), a word (`word_of_step`), or nothing it could use
(`alone_of_step`).
-/

namespace PackHost.Source

/-! ## What stands in front of an arrow -/

section Parameters

variable {s s' : Scan} {p : Position} {rest : List Char}

/-- The last character that is written for a visible lexeme is visible. -/
theorem visible_of_step {l : Lexeme} (hl : l.Stands rest) (hc : l.isLineComment = false)
    (hb : l.isBlank = false) (h : s.step p rest l = .ok s') :
    ∀ c ∈ s'.out.head?, Text.isBlank c = false := by
  intro c hout
  have hhead := Scan.head_step (Q := Text.isBlank) (by decide) (by decide) (by decide)
    hl.source_ne_nil h
  rw [Option.mem_def.mp hout] at hhead
  cases hlast : l.source.getLast? with
  | none => rw [hlast] at hhead; cases hhead
  | some d =>
    rw [hlast] at hhead
    have hd := hl.last_visible hc hb d hlast
    rwa [Option.map_some, Option.map_some, hd, Option.some.injEq] at hhead

/-- Behind a visible lexeme that is neither a word nor the end of a group an arrow stands alone. -/
theorem alone_of_step {l : Lexeme} (ht : Tidy s (l.source ++ rest)) (hl : l.Stands rest)
    (hw : ∀ text, l ≠ .word text) (hg : l ≠ .closing ')') (hc : l.isLineComment = false)
    (hb : l.isBlank = false) (h : s.step p rest l = .ok s') :
    closureParams? s'.out s'.group = none := by
  rw [closureParams?_of_visible (visible_of_step hl hc hb h) (ht.past_step hl hg h)]
  exact closureOfWord?_eq_none (ht.run_step hl hw hc h)

theorem copied_word {text t : List Char} (hl : (Lexeme.word text).Stands rest)
    (ht : Copied (.word text) t) :
    ∃ c cs, t = c :: cs ∧ isWordStart c = true ∧ ∀ d ∈ c :: cs, isWordPart d = true := by
  cases ht with
  | word =>
    obtain ⟨⟨c, cs, rfl, hc⟩, hword, -⟩ := hl
    exact ⟨c, cs, rfl, hc, hword⟩
  | var => exact ⟨'l', ['e', 't'], rfl, by decide, List.all_eq_true.mp (by decide)⟩

/-- A word is the parameter of an arrow behind it, unless it names a member or stands directly
behind characters that are part of words. -/
theorem word_of_step {text : List Char} (ht : Tidy s (text ++ rest))
    (hl : (Lexeme.word text).Stands rest) (h : s.step p rest (.word text) = .ok s') :
    ∃ t, Copied (.word text) t ∧ s'.out = t.reverse ++ s.out ∧
      closureParams? s'.out s'.group =
        if s.out.head?.any isWordPart = true ∨ s.afterDot = true then none
        else some (barred t.reverse s.out) := by
  have hvisible := visible_of_step hl rfl rfl h
  have hpast := ht.past_step (l := .word text) hl (by rintro ⟨⟩) h
  obtain ⟨t, hcopied, rfl⟩ := Scan.step_word h
  obtain ⟨c, cs, rfl, hstart, hword⟩ := copied_word hl hcopied
  refine ⟨_, hcopied, rfl, ?_⟩
  rw [closureParams?_of_visible hvisible hpast]
  change closureOfWord? ((c :: cs).reverse ++ s.out) = _
  by_cases hrun : s.out.head?.any isWordPart = true
  · obtain ⟨⟨c', cs', rfl, hc'⟩, -, -⟩ := hl
    rw [if_pos (.inl hrun)]
    exact closureOfWord?_eq_none
      (ht.run_append (isWordPart_of_isWordStart hc') hword (.inr hrun))
  · have hstop : ∀ d ∈ s.out.head?, isWordPart d = false := by
      intro d hd
      rw [Option.mem_def.mp hd] at hrun
      simpa using hrun
    rw [closureOfWord?_eq_some hword hstart hstop]
    simp [hrun, Scan.afterDot]

end Parameters

/-! ## What is written before an open parenthesis -/

/-- An arrow cuts off nothing up to a character that is neither blank nor part of a word, unless it
is one of the group that was closed last. -/
theorem suffix_closureParams? {c : Char} {base out written : List Char} {group : Option Group}
    (visible : Text.isBlank c = false) (apart : isWordPart c = false) (h : c :: base <:+ out)
    (hgroup : ∀ g ∈ group, base.length < g.first ∨ g.last ≤ base.length)
    (hout : closureParams? out group = some written) : c :: base <:+ written := by
  have htrimmed : c :: base <:+ out.dropWhile Text.isBlank := suffix_dropWhile visible h
  unfold closureParams? at hout
  dsimp only at hout
  generalize out.dropWhile Text.isBlank = trimmed at hout htrimmed
  split at hout
  · next w hw =>
    cases hout
    obtain ⟨g, hg, hclosure⟩ := Option.bind_eq_some_iff.mp hw
    have hplace := hgroup g hg
    unfold closureOfGroup? at hclosure
    split at hclosure
    · next hlast =>
      dsimp only at hclosure
      split at hclosure
      · cases hclosure
        have hlength := htrimmed.length_le
        simp only [List.length_cons] at hlength
        have hkeep : c :: base <:+ trimmed.drop (g.last - g.first) := by
          refine List.suffix_of_suffix_length_le htrimmed (List.drop_suffix _ _) ?_
          simp only [List.length_cons, List.length_drop]
          omega
        exact hkeep.trans (suffix_barred _ _)
      · cases hclosure
    · cases hclosure
  · unfold closureOfWord? at hout
    dsimp only at hout
    split at hout
    · cases hout
    · split at hout
      · cases hout
        exact (suffix_dropWhile apart htrimmed).trans (suffix_barred _ _)
      · cases hout

/-- The text up to an open parenthesis is still there, and the group that was closed last lies
either behind it or before the parenthesis. -/
structure Above (before : List Char) (s : Scan) : Prop where
  out : '(' :: before <:+ s.out
  group : ∀ g ∈ s.group, g.last ≤ s.out.length ∧ (before.length < g.first ∨ g.last ≤ before.length)

namespace Above

variable {before : List Char} {s s' : Scan} {p : Position} {rest : List Char}

theorem length_lt (h : Above before s) : before.length < s.out.length := by
  have := h.out.length_le
  simp only [List.length_cons] at this
  omega

/-- An arrow moves the parameters, and what it moves stands behind the parenthesis. -/
theorem closureParams? {out : List Char} (h : Above before s)
    (hout : PackHost.Source.closureParams? s.out s.group = some out) : '(' :: before <:+ out :=
  suffix_closureParams? (by decide) (by decide) h.out (fun g hg => (h.group g hg).2) hout

theorem arrow (h : Above before s) : Above before s.arrow := by
  have hwrite : '(' :: before <:+ '>' :: '=' :: s.out := h.out.trans ⟨['>', '='], rfl⟩
  cases hs : s.inSwitch with
  | true =>
    rw [Scan.arrow_inSwitch hs]
    refine ⟨hwrite, fun g hg => ⟨?_, (h.group g hg).2⟩⟩
    have hlast := (h.group g hg).1
    change g.last ≤ s.out.length + 1 + 1
    omega
  | false =>
    cases hout : PackHost.Source.closureParams? s.out s.group with
    | none =>
      rw [Scan.arrow_alone hs hout]
      exact ⟨hwrite, fun g hg => by cases hg⟩
    | some out =>
      rw [Scan.arrow_closure hs hout]
      exact ⟨h.closureParams? hout, fun g hg => by cases hg⟩

theorem leaf {l : Lexeme} (h : Above before s) (hb : l.isBracket = false)
    (hstep : s.step p rest l = .ok s') : Above before s' := by
  by_cases ha : l = .arrow
  · subst ha
    cases hstep
    exact h.arrow
  · obtain ⟨t, -, rfl⟩ := Scan.step_leaf hb ha hstep
    refine ⟨h.out.trans (List.suffix_append _ _), fun g hg => ⟨?_, (h.group g hg).2⟩⟩
    have := (h.group g hg).1
    simp only [Scan.copy, List.length_append]
    omega

end Above

/-- Nested brackets leave the open ones as they were, and what is written before those. -/
theorem Above.feed {before : List Char} {ms : List Lexeme} {s s' : Scan} {p : Position}
    {tail : List Char} (hn : Nested ms) (h : Above before s) (hf : s.feed p tail ms = .ok s') :
    Above before s' ∧ s'.stack = s.stack := by
  induction hn generalizing s s' p tail with
  | nil =>
    cases hf
    exact ⟨h, rfl⟩
  | leaf hl _ ih =>
    obtain ⟨m, hstep, hf⟩ := Scan.feed_cons_eq_ok.mp hf
    obtain ⟨hs', hstack⟩ := ih (h.leaf hl hstep) hf
    exact ⟨hs', hstack.trans (Scan.stack_step hl hstep)⟩
  | @group bracket inner ms _ _ ihi ih =>
    obtain ⟨_, ⟨⟩, hrest⟩ := Scan.feed_cons_eq_ok.mp hf
    obtain ⟨m₂, hinner, hrest⟩ := Scan.feed_append_eq_ok.mp hrest
    obtain ⟨m₃, hclose, hrest⟩ := Scan.feed_cons_eq_ok.mp hrest
    have hfirst : Above before (s.openBracket p bracket) := by
      refine ⟨h.out.trans (List.suffix_cons _ _), fun g hg => ⟨?_, (h.group g hg).2⟩⟩
      exact Nat.le_succ_of_le (h.group g hg).1
    obtain ⟨hsecond, hstack⟩ := ihi hfirst hinner
    obtain ⟨b, stack, hb, -, rfl⟩ := Scan.step_closing.mp hclose
    rw [hstack] at hb
    obtain ⟨rfl, rfl⟩ := List.cons_eq_cons.mp hb
    have hthird : Above before { m₂ with
        out := closingOf bracket :: m₂.out
        stack := s.stack
        group := if closingOf bracket = ')' then
          some ⟨s.out.length, (closingOf bracket :: m₂.out).length⟩ else m₂.group } := by
      refine ⟨hsecond.out.trans (List.suffix_cons _ _), fun g hg => ?_⟩
      dsimp only at hg
      split at hg
      · -- the new group starts where the bracket was opened, behind the parenthesis
        cases hg
        exact ⟨Nat.le_refl _, .inl h.length_lt⟩
      · exact ⟨Nat.le_succ_of_le (hsecond.group g hg).1, (hsecond.group g hg).2⟩
    obtain ⟨hs', hstack'⟩ := ih hthird hrest
    exact ⟨hs', hstack'⟩

/-- **The end of a group is the parameter list of an arrow behind it.** What was written before the
group is still there, and the group is taken as a whole. -/
theorem group_of_feed {inner : List Lexeme} {s s' : Scan} {p : Position} {tail rest : List Char}
    (ht : Tidy s rest) (hn : Nested inner)
    (hf : s.feed p tail (.opening '(' :: (inner ++ [.closing ')'])) = .ok s') :
    ∃ text, s'.out = ')' :: (text.reverse ++ '(' :: s.out) ∧ s'.stack = s.stack ∧
      closureParams? s'.out s'.group = some (barred (trim text).reverse s.out) := by
  obtain ⟨_, ⟨⟩, hrest⟩ := Scan.feed_cons_eq_ok.mp hf
  obtain ⟨m₂, hinner, hclose⟩ := Scan.feed_append_eq_ok.mp hrest
  have hfirst : Above s.out (s.openBracket p '(') :=
    ⟨List.suffix_refl _, fun g hg => ⟨Nat.le_succ_of_le (ht.past g hg), .inr (ht.past g hg)⟩⟩
  obtain ⟨⟨⟨text, htext⟩, -⟩, hstack⟩ := hfirst.feed hn hinner
  rw [Scan.feed_singleton] at hclose
  obtain ⟨b, stack, hb, -, rfl⟩ := Scan.step_closing.mp hclose
  rw [hstack] at hb
  obtain ⟨rfl, rfl⟩ := List.cons_eq_cons.mp hb
  refine ⟨text.reverse, ?_, rfl, ?_⟩
  · rw [List.reverse_reverse, ← htext]
  · dsimp only
    rw [if_pos rfl, ← htext, closureParams?_group, trim_reverse, List.reverse_reverse]

/-! ## The arrows of a text -/

def Blanks (bs : List Lexeme) : Prop := ∀ l ∈ bs, l.isBlank = true

theorem Blanks.sources {bs : List Lexeme} (h : Blanks bs) :
    ∀ c ∈ sources bs, Text.isBlank c = true := by
  induction bs with
  | nil => exact fun c hc => absurd hc List.not_mem_nil
  | cons l bs ih =>
    obtain ⟨hl, hbs⟩ := List.forall_mem_cons.mp h
    cases l with
    | other c => exact List.forall_mem_cons.mpr ⟨hl, ih hbs⟩
    | _ => cases hl

theorem Blanks.nested {bs : List Lexeme} (h : Blanks bs) : Nested bs :=
  .of_leaves fun l hl => by
    have hblank := h l hl
    cases l with
    | other c => rfl
    | _ => cases hblank

theorem exists_blanks (m : List Lexeme) :
    ∃ k bs, m = k ++ bs ∧ Blanks bs ∧ ∀ l ∈ k.getLast?, l.isBlank = false := by
  induction m using List.reverseRecOn with
  | nil => exact ⟨[], [], rfl, fun l hl => (List.not_mem_nil hl).elim, fun l hl => by cases hl⟩
  | append_singleton m l ih =>
    cases hl : l.isBlank with
    | false =>
      refine ⟨m ++ [l], [], by simp, fun l hl => (List.not_mem_nil hl).elim, fun l' hl' => ?_⟩
      rw [List.getLast?_concat] at hl'
      cases hl'
      exact hl
    | true =>
      obtain ⟨k, bs, rfl, hbs, hk⟩ := ih
      refine ⟨k, bs ++ [l], by simp, fun l' hl' => ?_, hk⟩
      rcases List.mem_append.mp hl' with hl' | hl'
      · exact hbs l' hl'
      · obtain rfl := List.mem_singleton.mp hl'
        exact hl

theorem Scan.feed_blanks {bs : List Lexeme} {s : Scan} {p : Position} {tail : List Char}
    (h : Blanks bs) : s.feed p tail bs = .ok (s.write (sources bs)) := by
  induction bs generalizing s p with
  | nil => rfl
  | cons l bs ih =>
    obtain ⟨hl, hbs⟩ := List.forall_mem_cons.mp h
    cases l with
    | other c =>
      refine Scan.feed_cons_eq_ok.mpr ⟨s.write [c], rfl, ?_⟩
      rw [ih hbs]
      simp [Scan.write, Lexeme.source]
    | _ => cases hl

theorem closureParams?_write {s : Scan} {text : List Char}
    (h : ∀ c ∈ text, Text.isBlank c = true) :
    closureParams? (s.write text).out (s.write text).group = closureParams? s.out s.group :=
  closureParams?_blanks fun c hc => h c (List.mem_reverse.mp hc)

namespace Passed

variable {a bs after : List Lexeme} {s s' : Scan}

theorem blanks (hb : Blanks bs) (h : Passed a (bs ++ after) s) :
    Passed (a ++ bs) after (s.write (sources bs)) :=
  append_iff.mpr ⟨s, h, Scan.feed_blanks hb⟩

/-- An arrow behind blanks, where there are parameters in front of these and the innermost bracket
is not marked. -/
theorem closure {params before : List Char} (hb : Blanks bs)
    (h : Passed a (bs ++ .arrow :: after) s) (hs : s.inSwitch = false)
    (hc : closureParams? s.out s.group = some (barred params before)) :
    Written (a ++ bs ++ [.arrow]) after (before.reverse ++ '|' :: params.reverse ++ ['|']) := by
  have hout : closureParams? (s.write (sources bs)).out (s.write (sources bs)).group =
      some (barred params before) := by rw [closureParams?_write hb.sources, hc]
  have hs' : (s.write (sources bs)).inSwitch = false := hs
  refine ⟨_, (h.blanks hb).arrow, ?_⟩
  rw [Scan.arrow_closure hs' hout]
  simp [barred]

/-- An arrow behind blanks, where there is nothing it could use in front of these. -/
theorem alone (hb : Blanks bs) (h : Passed a (bs ++ .arrow :: after) s)
    (hs : s.inSwitch = false) (hc : closureParams? s.out s.group = none) :
    Written (a ++ bs ++ [.arrow]) after (s.out.reverse ++ sources bs ++ ['=', '>']) := by
  have hout : closureParams? (s.write (sources bs)).out (s.write (sources bs)).group = none := by
    rw [closureParams?_write hb.sources, hc]
  have hs' : (s.write (sources bs)).inSwitch = false := hs
  refine ⟨_, (h.blanks hb).arrow, ?_⟩
  rw [Scan.arrow_alone hs' hout]
  simp [Scan.write]

/-- An arrow that separates the arms of a `switch` body. -/
theorem arm (h : Passed a (.arrow :: after) s) (hs : s.inSwitch = true) :
    Written (a ++ [.arrow]) after (s.out.reverse ++ ['=', '>']) := by
  refine ⟨_, h.arrow, ?_⟩
  rw [Scan.arrow_inSwitch hs]
  simp [Scan.write]

/-- Characters that are part of words are told apart alike in the source and in what was written. -/
theorem run_iff (hp : InPlace (a ++ after)) (h : Passed a after s) :
    s.out.head?.any isWordPart = true ↔ EndsInWord a := by
  have hhead := h.head (Q := isWordPart) (by decide) (by decide) (by decide) hp
  have hany : ∀ o : Option Char, o.any isWordPart = (o.map isWordPart).getD false := by
    rintro (_ | c) <;> rfl
  unfold EndsInWord
  rw [hany, hhead, ← hany]

theorem not_inSwitch (hb : Blanks bs) (hp : InPlace (a ++ (bs ++ .arrow :: after)))
    (h : Passed a (bs ++ .arrow :: after) s) (hm : ¬ InMarked (a ++ bs)) :
    s.inSwitch = false := by
  have hc : Control (a ++ bs) (s.write (sources bs)) :=
    (h.blanks hb).control (by rwa [List.append_assoc])
  exact Bool.eq_false_iff.mpr fun hs => hm (hc.inSwitch_iff.mp hs)

/-- **An arrow behind a group and blanks** takes the inside of the group, without blanks at its
ends, between bars. -/
theorem closure_group {inner : List Lexeme} {final : Scan}
    (hp : InPlace (a ++ .opening '(' :: (inner ++ .closing ')' :: (bs ++ .arrow :: after))))
    (hf : Passed (a ++ .opening '(' :: (inner ++ .closing ')' :: (bs ++ .arrow :: after))) [] final)
    (hn : Nested inner) (hb : Blanks bs)
    (hm : ¬ InMarked (a ++ .opening '(' :: (inner ++ .closing ')' :: bs))) :
    ∃ u x, Written a (.opening '(' :: (inner ++ .closing ')' :: (bs ++ .arrow :: after))) u ∧
      Written (a ++ .opening '(' :: inner) (.closing ')' :: (bs ++ .arrow :: after))
        (u ++ '(' :: x) ∧
      Written (a ++ .opening '(' :: (inner ++ .closing ')' :: bs) ++ [.arrow]) after
        (u ++ '|' :: trim x ++ ['|']) := by
  let group : List Lexeme := .opening '(' :: (inner ++ [.closing ')'])
  have hsplit : ∀ rest : List Lexeme,
      a ++ .opening '(' :: (inner ++ .closing ')' :: rest) = a ++ group ++ rest := by
    simp [group]
  obtain ⟨s₁, h₁⟩ := hf.exists_split
  obtain ⟨m, hinner⟩ : ∃ m, Passed (a ++ .opening '(' :: inner)
      (.closing ')' :: (bs ++ .arrow :: after)) m := by
    have hf' : Passed (a ++ .opening '(' :: inner ++ .closing ')' :: (bs ++ .arrow :: after)) []
        final := by simpa using hf
    exact hf'.exists_split
  obtain ⟨s₂, h₂⟩ : ∃ s, Passed (a ++ group) (bs ++ .arrow :: after) s := by
    rw [hsplit] at hf
    exact hf.exists_split
  have h₁' : Passed a (group ++ (bs ++ .arrow :: after)) s₁ := by simpa [group] using h₁
  obtain ⟨p, hgroup⟩ := h₁'.feed h₂
  obtain ⟨x, hout, -, hparams⟩ := group_of_feed (h₁.tidy hp) hn hgroup
  rw [hsplit] at hp hm
  rw [List.append_assoc] at hp
  have hmarked := h₂.not_inSwitch hb (by rwa [List.append_assoc]) hm
  refine ⟨s₁.out.reverse, x, ⟨s₁, h₁, rfl⟩, ⟨m, hinner, ?_⟩, ?_⟩
  · -- the closing bracket is written behind what was written for the inside
    obtain ⟨q, hclose⟩ := hinner.step (l := .closing ')') (by simpa [group] using h₂)
    obtain ⟨b, stack, -, -, rfl⟩ := Scan.step_closing.mp hclose
    rw [List.cons.inj hout |>.2]
    simp
  · rw [hsplit]
    simpa using h₂.closure hb hmarked hparams

/-- **An arrow behind a word and blanks** puts the word between bars, unless it names a member or
stands directly behind characters that are part of words. -/
theorem closure_word {text : List Char} {final : Scan}
    (hp : InPlace (a ++ .word text :: (bs ++ .arrow :: after)))
    (hf : Passed (a ++ .word text :: (bs ++ .arrow :: after)) [] final) (hb : Blanks bs)
    (hm : ¬ InMarked (a ++ .word text :: bs)) (hdot : ¬ EndsInDot a)
    (hrun : ¬ EndsInWord a) :
    ∃ u x, Copied (.word text) x ∧ Written a (.word text :: (bs ++ .arrow :: after)) u ∧
      Written (a ++ [.word text]) (bs ++ .arrow :: after) (u ++ x) ∧
      Written (a ++ .word text :: bs ++ [.arrow]) after (u ++ '|' :: x ++ ['|']) := by
  have hsplit : ∀ rest : List Lexeme, a ++ .word text :: rest = a ++ [.word text] ++ rest := by
    simp
  obtain ⟨s₁, h₁⟩ := hf.exists_split
  obtain ⟨s₂, h₂⟩ : ∃ s, Passed (a ++ [.word text]) (bs ++ .arrow :: after) s := by
    rw [hsplit] at hf
    exact hf.exists_split
  obtain ⟨p, hstep⟩ := h₁.step h₂
  obtain ⟨x, hcopied, hout, hparams⟩ := word_of_step (h₁.tidy hp) hp.stands hstep
  have hfree : ¬ (s₁.out.head?.any isWordPart = true ∨ s₁.afterDot = true) := by
    rintro (h | h)
    · exact hrun ((h₁.run_iff hp).mp h)
    · exact hdot ((h₁.control hp).dot.mp h)
  rw [if_neg hfree] at hparams
  have hmarked := h₂.not_inSwitch hb (by rwa [← hsplit]) (by rwa [← hsplit])
  refine ⟨s₁.out.reverse, x, hcopied, ⟨s₁, h₁, rfl⟩, ⟨s₂, h₂, ?_⟩, ?_⟩
  · rw [hout]
    simp
  · rw [hsplit]
    simpa using h₂.closure hb hmarked hparams

end Passed

namespace Written

variable {a after : List Lexeme} {u : List Char}

theorem opening {b : Char} (h : Written a (.opening b :: after) u) :
    Written (a ++ [.opening b]) after (u ++ [b]) := by
  obtain ⟨s, hs, rfl⟩ := h
  exact ⟨_, Passed.concat_iff.mpr ⟨s, hs, rfl⟩, by simp [Scan.openBracket]⟩

theorem closing {c : Char} {final : Scan} (hf : Passed (a ++ .closing c :: after) [] final)
    (h : Written a (.closing c :: after) u) : Written (a ++ [.closing c]) after (u ++ [c]) := by
  obtain ⟨s, hs, rfl⟩ := h
  obtain ⟨s', hs'⟩ := hf.exists_concat
  obtain ⟨p, hstep⟩ := hs.step hs'
  obtain ⟨b, stack, -, -, rfl⟩ := Scan.step_closing.mp hstep
  exact ⟨_, hs', by simp⟩

theorem blanks {bs : List Lexeme} (hb : Blanks bs) (h : Written a (bs ++ after) u) :
    Written (a ++ bs) after (u ++ sources bs) := by
  obtain ⟨s, hs, rfl⟩ := h
  exact ⟨_, hs.blanks hb, by simp [Scan.write]⟩

end Written

/-- What is written for lexemes that end with a visible one ends with a visible character. -/
theorem Written.last_visible {a ms after : List Lexeme} {u t : List Char}
    (h : Written (a ++ ms) after (u ++ t)) (hp : InPlace (a ++ ms ++ after))
    (hms : ms = [] → t = [])
    (last : ∀ l ∈ ms.getLast?, l.isBlank = false ∧ l.isLineComment = false) :
    ∀ c ∈ t.getLast?, Text.isBlank c = false := by
  intro c hc
  rcases List.eq_nil_or_concat' ms with rfl | ⟨ms, l, rfl⟩
  · rw [hms rfl] at hc
    cases hc
  · obtain ⟨hblank, hline⟩ := last l List.getLast?_concat
    obtain ⟨s, hs, hout⟩ := h
    rw [← List.append_assoc] at hs
    obtain ⟨m, -, hstep⟩ := Passed.concat_iff.mp hs
    have hl : l.Stands (sources after) := by
      rw [← List.append_assoc, List.append_assoc] at hp
      exact hp.stands
    refine visible_of_step hl hline hblank hstep c ?_
    rw [← List.getLast?_reverse, ← hout, List.getLast?_append, Option.mem_def.mp hc]
    rfl

end PackHost.Source
