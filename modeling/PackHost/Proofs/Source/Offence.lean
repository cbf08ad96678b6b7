import PackHost.Proofs.Source.Front

/-!
# The first offence

What is wrong at a place of a source text is said by `Offence` without the pass. A text is refused
exactly if there is an offence in it, for the first one, which is named with its exact place
(`refused_iff`).
-/

namespace PackHost.Source

/-- The place behind the given text: lines are counted by newlines, columns by the characters behind
the last of them. -/
def placeBehind (text : List Char) : Position :=
  ⟨text.count '\n' + 1, (text.reverse.takeWhile (· ≠ '\n')).length + 1⟩

/-- The innermost open bracket behind the lexemes, and the lexemes in front of it. -/
def Innermost (before : List Lexeme) (outer : List Lexeme) (bracket : Char) : Prop :=
  ∃ inner, before = outer ++ .opening bracket :: inner ∧ Nested inner

/-- What is wrong behind the given lexemes, at the start of the given text. -/
inductive Offence (before : List Lexeme) : List Char → Fault → Prop
  | unexpectedClose {c : Char} {rest : List Char} : isClosing c → Nested before →
      Offence before (c :: rest) (.unexpectedClose c (placeBehind (sources before)))
  | mismatched {outer : List Lexeme} {b c : Char} {rest : List Char} : isClosing c →
      Innermost before outer b → c ≠ closingOf b →
      Offence before (c :: rest) (.mismatched c (closingOf b) (placeBehind (sources before))
        (placeBehind (sources outer)).line)
  /-- The word `import` that names no member. -/
  | importing {rest : List Char} : (∀ c ∈ rest.head?, isWordPart c = false) → ¬ EndsInDot before →
      Offence before ("import".toList ++ rest)
        (.moduleLoading "import" (placeBehind (sources before)))
  /-- The word `require` that names no member, in front of an opening parenthesis. -/
  | requiring {rest : List Char} : (∀ c ∈ rest.head?, isWordPart c = false) → ¬ EndsInDot before →
      firstVisible? rest = some '(' →
      Offence before ("require".toList ++ rest)
        (.moduleLoading "require" (placeBehind (sources before)))
  | openLiteral {quote : Char} {text : List Char} : isQuote quote →
      (∀ items rest, AreItems quote items → text ≠ items.flatMap Item.raw ++ quote :: rest) →
      Offence before (quote :: text) (.unterminatedString (placeBehind (sources before)))
  | openComment {text : List Char} : ¬ ['*', '/'] <:+: text →
      Offence before ('/' :: '*' :: text) (.unterminatedComment (placeBehind (sources before)))
  | unclosed {outer : List Lexeme} {b : Char} : Innermost before outer b →
      Offence before [] (.unclosed b (placeBehind (sources outer)))

/-- At the start of none of the lexemes there is an offence, in front of the given text. -/
def Clean (before : List Lexeme) (rest : List Char) : Prop :=
  ∀ front l back, before = front ++ l :: back →
    ∀ f, ¬ Offence front (l.source ++ (sources back ++ rest)) f

/-- The first offence in the text: everything in front of it can be read and is clean. -/
def FirstOffence (text : List Char) (f : Fault) : Prop :=
  ∃ before rest, text = sources before ++ rest ∧ InFront rest before ∧ Clean before rest ∧
    Offence before rest f

/-! ## Places -/

theorem advance_start (text : List Char) : Position.start.advance text = placeBehind text := by
  induction text using List.reverseRecOn with
  | nil => rfl
  | append_singleton text c ih =>
    rw [Position.advance_append, ih]
    by_cases hc : c = '\n'
    · subst hc
      simp [Position.advance, Position.next, placeBehind]
    · simp [Position.advance, Position.next, placeBehind, hc]

/-- The given brackets, innermost first, are those that the lexemes leave open, each at its
place. -/
inductive Placed : List OpenBracket → List Lexeme → Prop
  | ground {q : List Lexeme} : Nested q → Placed [] q
  | level {b : OpenBracket} {stack : List OpenBracket} {p q : List Lexeme} : Placed stack p →
      b.place = placeBehind (sources p) → Nested q → Placed (b :: stack) (p ++ .opening b.bracket :: q)

namespace Placed

variable {stack : List OpenBracket} {ls ms q outer : List Lexeme} {s s' : Scan}

theorem append (h : Placed stack ls) (hq : Nested q) : Placed stack (ls ++ q) := by
  cases h with
  | ground h => exact .ground (h.append hq)
  | level h hplace hin =>
    rw [List.append_assoc, List.cons_append]
    exact .level h hplace (hin.append hq)

theorem step {rest : List Char} {l : Lexeme} (h : Placed s.stack ls)
    (hstep : s.step (placeBehind (sources ls)) rest l = .ok s') : Placed s'.stack (ls ++ [l]) := by
  by_cases hl : l.isBracket = false
  · rw [Scan.stack_step hl hstep]
    exact h.append (.singleton hl)
  · cases l with
    | opening b =>
      cases hstep
      exact .level h rfl .nil
    | closing c =>
      obtain ⟨b, stack, hstack, rfl, rfl⟩ := Scan.step_closing.mp hstep
      rw [hstack] at h
      cases h with
      | level houter _ hin =>
        rw [List.append_assoc]
        exact houter.append (.group hin .nil)
    | _ => exact absurd rfl hl

theorem feed {tail : List Char} (h : Placed s.stack ls)
    (hf : s.feed (placeBehind (sources ls)) tail ms = .ok s') : Placed s'.stack (ls ++ ms) := by
  induction ms generalizing ls s with
  | nil =>
    cases hf
    simpa using h
  | cons l ms ih =>
    obtain ⟨m, hstep, hf⟩ := Scan.feed_cons_eq_ok.mp hf
    have hplace : (placeBehind (sources ls)).advance l.source = placeBehind (sources (ls ++ [l])) := by
      rw [← advance_start, ← advance_start, ← Position.advance_append]
      simp
    rw [hplace] at hf
    have := ih (h.step hstep) hf
    rwa [List.append_assoc, List.singleton_append] at this

theorem nested (h : Placed [] ls) : Nested ls := by
  cases h with
  | ground h => exact h

theorem exists_innermost {b : OpenBracket} (h : Placed (b :: stack) ls) :
    ∃ outer, Innermost ls outer b.bracket ∧ b.place = placeBehind (sources outer) := by
  cases h with
  | level _ hplace hin => exact ⟨_, ⟨_, rfl, hin⟩, hplace⟩

theorem stack_eq_nil (h : Placed stack ls) (hn : Nested ls) : stack = [] := by
  cases h with
  | ground => rfl
  | level _ _ hin => exact absurd hn (Nested.not_opening hin)

theorem stack_eq_cons {b : Char} (h : Placed stack ls) (hb : Innermost ls outer b) :
    ∃ o rest, stack = o :: rest ∧ o.bracket = b ∧ o.place = placeBehind (sources outer) := by
  obtain ⟨inner, rfl, hn⟩ := hb
  generalize hq : outer ++ .opening b :: inner = q at h
  cases h with
  | ground hnested => exact absurd (hq ▸ hnested) (Nested.not_opening hn)
  | level _ hplace hin =>
    obtain ⟨rfl, rfl, -⟩ := Nested.innermost_unique hq hn hin
    exact ⟨_, _, rfl, rfl, hplace⟩

end Placed

/-! ## Literals and comments that are never closed -/

theorem readItems?_eq_none_iff {quote : Char} {text : List Char} (hq : isQuote quote) :
    readItems? quote text = none ↔
      ∀ items rest, AreItems quote items → text ≠ items.flatMap Item.raw ++ quote :: rest := by
  constructor
  · rintro h items rest hitems rfl
    rw [readItems?_append hq hitems rest] at h
    cases h
  · intro h
    cases hread : readItems? quote text with
    | none => rfl
    | some r =>
      obtain ⟨items, rest⟩ := r
      exact absurd (append_of_readItems? hread).symm (h items rest (areItems_of_readItems? hq hread))

theorem readComment?_eq_none_iff {text : List Char} :
    readComment? text = none ↔ ¬ ['*', '/'] <:+: text := by
  constructor
  · intro h
    fun_induction readComment? text with
    | case1 => decide
    | case2 => cases h
    | case3 c cs hc ih =>
      rw [List.infix_cons_iff]
      rintro (⟨t, ht⟩ | hin)
      · obtain ⟨rfl, rfl⟩ := List.cons_eq_cons.mp ht
        exact hc t rfl rfl
      · exact ih (Option.map_eq_none_iff.mp h) hin
  · intro h
    cases hread : readComment? text with
    | none => rfl
    | some r =>
      obtain ⟨comment, rest⟩ := r
      obtain ⟨body, rfl, -⟩ := not_infix_of_readComment? hread
      refine absurd ⟨body, rest, ?_⟩ h
      exact append_of_readComment? hread

theorem read?_eq_openLiteral_iff {text : List Char} : read? text = some .openLiteral ↔
    ∃ quote cs, text = quote :: cs ∧ isQuote quote ∧ readItems? quote cs = none := by
  constructor
  · intro h
    unfold read? at h
    split at h
    · cases h
    · cases h
    · split at h <;> cases h
    · cases h
    · cases h
    · cases h
    · next c cs _ _ _ _ _ =>
      simp only [Option.some.injEq, readPlain] at h
      split at h
      · next hq =>
        split at h
        · cases h
        · next hread => exact ⟨c, cs, rfl, hq, hread⟩
      · repeat' split at h
        all_goals cases h
  · rintro ⟨quote, cs, rfl, hq, hread⟩
    rw [read?_cons]
    · simp [readPlain, hq, hread]
    all_goals
      rintro rfl
      exact absurd hq (by decide)

theorem read?_eq_openComment_iff {text : List Char} : read? text = some .openComment ↔
    ∃ cs, text = '/' :: '*' :: cs ∧ readComment? cs = none := by
  constructor
  · intro h
    unfold read? at h
    split at h
    · cases h
    · cases h
    · next cs =>
      split at h
      · cases h
      · next hread => exact ⟨cs, rfl, hread⟩
    · cases h
    · cases h
    · cases h
    · simp only [Option.some.injEq, readPlain] at h
      repeat' split at h
      all_goals cases h
  · rintro ⟨cs, rfl, hread⟩
    simp [read?, hread]

/-! ## The result of the pass from a place on -/

namespace Scan

variable {s s' : Scan} {p : Position} {text rest : List Char} {l : Lexeme} {f : Fault}

/-- The result of a text of which the given rest is still to be read. -/
def result (s : Scan) (p : Position) (text : List Char) : Except Fault String :=
  match s.run p text with
  | .error f => .error f
  | .ok s' => s'.finish

theorem result_nil : s.result p [] = s.finish := by
  rw [result, run]
  rfl

theorem result_openLiteral (h : read? text = some .openLiteral) :
    s.result p text = .error (.unterminatedString p) := by
  have hrun : s.run p text = .error (.unterminatedString p) := by
    rw [run]
    split
    · next hnone => rw [h] at hnone; cases hnone
    · rfl
    · next hopen => rw [h] at hopen; cases hopen
    · next hsome => rw [h] at hsome; cases hsome
  rw [result, hrun]

theorem result_openComment (h : read? text = some .openComment) :
    s.result p text = .error (.unterminatedComment p) := by
  have hrun : s.run p text = .error (.unterminatedComment p) := by
    rw [run]
    split
    · next hnone => rw [h] at hnone; cases hnone
    · next hopen => rw [h] at hopen; cases hopen
    · rfl
    · next hsome => rw [h] at hsome; cases hsome
  rw [result, hrun]

theorem result_lexeme (h : read? text = some (.lexeme l rest)) (hstep : s.step p rest l = .ok s') :
    s.result p text = s'.result (p.advance l.source) rest := by
  rw [result, run_lexeme h, hstep]
  rfl

theorem result_refused (h : read? text = some (.lexeme l rest)) (hstep : s.step p rest l = .error f) :
    s.result p text = .error f := by
  rw [result, run_lexeme h, hstep]

end Scan

theorem downlevel_eq_result (source : String) :
    downlevel source = Scan.start.result Position.start source.toList := rfl

/-! ## One place -/

/-- The pass over `before`, in front of `rest`, ends in the given state. -/
structure Reached (before : List Lexeme) (rest : List Char) (s : Scan) : Prop where
  front : InFront rest before
  feed : Scan.start.feed Position.start rest before = .ok s

theorem step_word_error {s : Scan} {p : Position} {text rest : List Char} {f : Fault}
    (h : s.step p rest (.word text) = .error f) : s.afterDot = false ∧
      (text = "import".toList ∧ f = .moduleLoading "import" p ∨
        text = "require".toList ∧ firstVisible? rest = some '(' ∧ f = .moduleLoading "require" p) := by
  simp only [Scan.step, Scan.word] at h
  split at h
  · cases h
  · next hdot =>
    refine ⟨by simpa using hdot, ?_⟩
    split at h
    · cases h
    · split at h
      · next himport =>
        cases h
        exact .inl ⟨himport, rfl⟩
      · split at h
        · next hrequire =>
          cases h
          exact .inr ⟨hrequire.1, hrequire.2, rfl⟩
        · split at h <;> cases h

theorem step_closing_error {s : Scan} {p : Position} {rest : List Char} {c : Char} {f : Fault}
    (h : s.step p rest (.closing c) = .error f) :
    s.stack = [] ∧ f = .unexpectedClose c p ∨
      ∃ b stack, s.stack = b :: stack ∧ c ≠ closingOf b.bracket ∧
        f = .mismatched c (closingOf b.bracket) p b.place.line := by
  simp only [Scan.step, Scan.closeBracket] at h
  split at h
  · next hstack =>
    cases h
    exact .inl ⟨hstack, rfl⟩
  · next b stack hstack =>
    split at h
    · cases h
    · next hc =>
      cases h
      exact .inr ⟨b, stack, hstack, hc, rfl⟩

namespace Reached

variable {before : List Lexeme} {rest : List Char} {s s' : Scan} {l : Lexeme} {f : Fault}

theorem control (h : Reached before rest s) : Control before s := by
  simpa using Control.start.feed h.front.source_ne_nil h.feed

theorem placed (h : Reached before rest s) : Placed s.stack before :=
  have hstart : Placed Scan.start.stack [] := .ground .nil
  hstart.feed h.feed

theorem next (h : Reached before (l.source ++ rest) s) (hl : l.Stands rest)
    (hstep : s.step (placeBehind (sources before)) rest l = .ok s') : Reached (before ++ [l]) rest s' := by
  refine ⟨inFront_append.mpr ⟨by simpa using h.front, hl, trivial⟩, ?_⟩
  refine Scan.feed_append_eq_ok.mpr ⟨s, by simpa using h.feed, ?_⟩
  rwa [advance_start, Scan.feed_singleton]

theorem offence (h : Reached before (l.source ++ rest) s) (hl : l.Stands rest)
    (hstep : s.step (placeBehind (sources before)) rest l = .error f) :
    Offence before (l.source ++ rest) f := by
  cases l with
  | word text =>
    obtain ⟨hdot, ⟨rfl, rfl⟩ | ⟨rfl, hparen, rfl⟩⟩ := step_word_error hstep
    · refine .importing hl.2.2 fun hends => ?_
      rw [h.control.dot.mpr hends] at hdot
      cases hdot
    · refine .requiring hl.2.2 (fun hends => ?_) hparen
      rw [h.control.dot.mpr hends] at hdot
      cases hdot
  | closing c =>
    obtain ⟨hstack, rfl⟩ | ⟨b, stack, hstack, hc, rfl⟩ := step_closing_error hstep
    · exact .unexpectedClose hl (hstack ▸ h.placed).nested
    · obtain ⟨outer, hinner, hplace⟩ := (hstack ▸ h.placed).exists_innermost
      rw [hplace]
      exact .mismatched hl hinner hc
  | _ => cases hstep

/-- **Where there is no offence, the pass goes on**, or it is over and no bracket is open. -/
theorem progress (h : Reached before rest s) (hnone : ∀ f, ¬ Offence before rest f) :
    rest = [] ∧ s.stack = [] ∨ ∃ l after s', rest = l.source ++ after ∧ l.Stands after ∧
      s.step (placeBehind (sources before)) after l = .ok s' := by
  cases hread : read? rest with
  | none =>
    obtain rfl := eq_nil_of_read? hread
    refine .inl ⟨rfl, ?_⟩
    -- an open bracket is an offence at the end of the text
    cases hstack : s.stack with
    | nil => rfl
    | cons b stack =>
      obtain ⟨outer, hinner, -⟩ := (hstack ▸ h.placed).exists_innermost
      exact absurd (.unclosed hinner) (hnone _)
  | some reading =>
    cases reading with
    | openLiteral =>
      obtain ⟨quote, cs, rfl, hq, hitems⟩ := read?_eq_openLiteral_iff.mp hread
      exact absurd (.openLiteral hq ((readItems?_eq_none_iff hq).mp hitems)) (hnone _)
    | openComment =>
      obtain ⟨cs, rfl, hcomment⟩ := read?_eq_openComment_iff.mp hread
      exact absurd (.openComment (readComment?_eq_none_iff.mp hcomment)) (hnone _)
    | lexeme l after =>
      obtain ⟨rfl, hl⟩ := read?_eq_lexeme_iff.mp hread
      refine .inr ⟨l, after, ?_⟩
      cases hstep : s.step (placeBehind (sources before)) after l with
      | error f => exact absurd (h.offence hl hstep) (hnone f)
      | ok s' => exact ⟨s', rfl, hl, rfl⟩

/-- **An offence is reported as it is.** -/
theorem result_eq_error (h : Reached before rest s) (ho : Offence before rest f) :
    s.result (placeBehind (sources before)) rest = .error f := by
  have hdot : ¬ EndsInDot before → s.afterDot = false := fun hnot =>
    Bool.eq_false_iff.mpr fun hs => hnot (h.control.dot.mp hs)
  cases ho with
  | @unexpectedClose c rest hc hn =>
    have hread : read? (c :: rest) = some (.lexeme (.closing c) rest) := read?_append (l := .closing c) hc
    refine Scan.result_refused hread ?_
    simp [Scan.step, Scan.closeBracket, h.placed.stack_eq_nil hn]
  | @mismatched outer b c rest hc hinner hne =>
    have hread : read? (c :: rest) = some (.lexeme (.closing c) rest) := read?_append (l := .closing c) hc
    obtain ⟨o, stack, hstack, rfl, hplace⟩ := h.placed.stack_eq_cons hinner
    refine Scan.result_refused hread ?_
    simp [Scan.step, Scan.closeBracket, hstack, hne, hplace]
  | @importing rest hrest hends =>
    have hl : (Lexeme.word "import".toList).Stands rest :=
      ⟨⟨'i', _, rfl, by decide⟩, List.all_eq_true.mp (by decide), hrest⟩
    refine Scan.result_refused (read?_append hl) ?_
    simp [Scan.step, Scan.word, hdot hends]
  | @requiring rest hrest hends hparen =>
    have hl : (Lexeme.word "require".toList).Stands rest :=
      ⟨⟨'r', _, rfl, by decide⟩, List.all_eq_true.mp (by decide), hrest⟩
    refine Scan.result_refused (read?_append hl) ?_
    simp [Scan.step, Scan.word, hdot hends, hparen]
  | openLiteral hq hitems =>
    exact Scan.result_openLiteral
      (read?_eq_openLiteral_iff.mpr ⟨_, _, rfl, hq, (readItems?_eq_none_iff hq).mpr hitems⟩)
  | openComment hcomment =>
    exact Scan.result_openComment
      (read?_eq_openComment_iff.mpr ⟨_, rfl, readComment?_eq_none_iff.mpr hcomment⟩)
  | unclosed hinner =>
    obtain ⟨o, stack, hstack, rfl, hplace⟩ := h.placed.stack_eq_cons hinner
    rw [Scan.result_nil]
    simp [Scan.finish, hstack, hplace]

end Reached

/-! ## All places -/

theorem clean_nil (rest : List Char) : Clean [] rest := fun front l back h => by simp at h

theorem clean_concat {before : List Lexeme} {rest : List Char} {l : Lexeme} :
    Clean (before ++ [l]) rest ↔
      Clean before (l.source ++ rest) ∧ ∀ f, ¬ Offence before (l.source ++ rest) f := by
  constructor
  · intro h
    refine ⟨?_, by simpa using h before l [] rfl⟩
    rintro front m back rfl f
    simpa using h front m (back ++ [l]) (by simp) f
  · rintro ⟨hbefore, hl⟩ front m back heq f
    rcases List.eq_nil_or_concat' back with rfl | ⟨back, k, rfl⟩
    · obtain ⟨rfl, hm⟩ := List.append_inj' heq rfl
      obtain rfl := List.singleton_inj.mp hm
      simpa using hl f
    · rw [← List.cons_append, ← List.append_assoc] at heq
      obtain ⟨rfl, hk⟩ := List.append_inj' heq rfl
      obtain rfl := List.singleton_inj.mp hk
      simpa using hbefore front m back rfl f

/-- The pass comes to every place in front of which all is clean. -/
theorem Clean.exists_reached {before : List Lexeme} {rest : List Char} (h : Clean before rest)
    (hfront : InFront rest before) : ∃ s, Reached before rest s ∧
      Scan.start.result Position.start (sources before ++ rest) =
        s.result (placeBehind (sources before)) rest := by
  induction before using List.reverseRecOn generalizing rest with
  | nil => exact ⟨Scan.start, ⟨trivial, rfl⟩, rfl⟩
  | append_singleton before l ih =>
    obtain ⟨hbefore, hnone⟩ := clean_concat.mp h
    obtain ⟨hin, hl⟩ := inFront_append.mp hfront
    have hstands : l.Stands rest := by simpa using hl.1
    obtain ⟨s, hs, hresult⟩ := ih hbefore (by simpa using hin)
    obtain ⟨hnil, -⟩ | ⟨l', after, s', heq, hl', hstep⟩ := hs.progress hnone
    · exact absurd (List.append_eq_nil_iff.mp hnil).1 hstands.source_ne_nil
    · have hread := read?_append hstands
      rw [heq, read?_append hl'] at hread
      cases hread
      refine ⟨s', hs.next hstands hstep, ?_⟩
      rw [Scan.result_lexeme (read?_append hstands) hstep] at hresult
      rw [sources_append, sources_cons, sources_nil, List.append_nil, List.append_assoc, hresult,
        ← advance_start, ← advance_start, Position.advance_append]

/-- A refusal at some place or behind it is for the first offence. -/
theorem Reached.firstOffence {before : List Lexeme} {rest : List Char} {s : Scan} {f : Fault}
    (h : Reached before rest s) (hclean : Clean before rest)
    (hf : s.result (placeBehind (sources before)) rest = .error f) :
    FirstOffence (sources before ++ rest) f := by
  -- what is left gets shorter: the first offence is here, or there is none here and the pass goes on
  induction hn : rest.length using Nat.strong_induction_on generalizing before rest s with
  | _ n ih =>
    subst hn
    by_cases ho : ∃ g, Offence before rest g
    · obtain ⟨g, hg⟩ := ho
      rw [h.result_eq_error hg] at hf
      cases hf
      exact ⟨before, rest, rfl, h.front, hclean, hg⟩
    · have hnone : ∀ g, ¬ Offence before rest g := fun g hg => ho ⟨g, hg⟩
      obtain ⟨rfl, hstack⟩ | ⟨l, after, s', rfl, hl, hstep⟩ := h.progress hnone
      · rw [Scan.result_nil] at hf
        simp [Scan.finish, hstack] at hf
      · have hread := read?_append hl
        rw [Scan.result_lexeme hread hstep, ← advance_start, ← Position.advance_append,
          advance_start] at hf
        have hnext := ih after.length (length_lt_of_read? hread) (h.next hl hstep)
          (clean_concat.mpr ⟨hclean, hnone⟩) (by simpa using hf) rfl
        simpa using hnext

/-- **A text is refused exactly for its first offence**, which is named with its place. -/
theorem refused_iff (source : String) (f : Fault) :
    downlevel source = .error f ↔ FirstOffence source.toList f := by
  rw [downlevel_eq_result]
  constructor
  · intro h
    have hstart : Reached [] source.toList Scan.start := ⟨trivial, rfl⟩
    exact hstart.firstOffence (clean_nil _) h
  · rintro ⟨before, rest, htext, hfront, hclean, ho⟩
    obtain ⟨s, hs, hresult⟩ := hclean.exists_reached hfront
    rw [htext, hresult]
    exact hs.result_eq_error ho

end PackHost.Source
