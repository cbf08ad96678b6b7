import PackHost.Proofs.Source.Weave

/-!
# The lines of the result

* `lines_kept`: where no arrow has to take a newline away, the result has as many lines as the
  source and every lexeme stays on its line;
* `line_lost`: without that condition it fails. The newlines around the parameters of an arrow
  function are taken away and not written again.
-/

namespace PackHost.Source

/-- Arrows outside of `switch` bodies take no newline away. -/
def NoBreaks (ls : List Lexeme) : Prop :=
  ∀ before after k bs, ls = before ++ .arrow :: after → ¬ InMarked before → Trimmed before k bs →
    .other '\n' ∉ bs

/-! ## Newlines of a lexeme -/

theorem count_newline_doubleQuoted {quote : Char} {items : List Item} (h : AreItems quote items) :
    (items.flatMap Item.doubleQuoted).count '\n' = (items.flatMap Item.raw).count '\n' := by
  induction items with
  | nil => rfl
  | cons item items ih =>
    cases item with
    | plain c =>
      obtain ⟨-, -, -, hitems⟩ := h
      rw [List.flatMap_cons, List.flatMap_cons, List.count_append, List.count_append, ih hitems]
      by_cases hc : c = '"'
      · subst hc
        rfl
      · simp [Item.doubleQuoted, Item.raw, hc]
    | escape c digits =>
      obtain ⟨-, hfew, -, hitems⟩ := h
      rw [List.flatMap_cons, List.flatMap_cons, List.count_append, List.count_append, ih hitems]
      by_cases hc : c = '\''
      · -- no digits belong to an escaped quote
        subst hc
        obtain rfl := List.length_eq_zero_iff.mp (Nat.le_zero.mp hfew)
        rfl
      · simp [Item.doubleQuoted, Item.raw, hc]

theorem Copied.count_newline {l : Lexeme} {t rest : List Char} (h : Copied l t)
    (hl : l.Stands rest) : t.count '\n' = l.source.count '\n' := by
  cases h with
  | literal quote items =>
    unfold writeLiteral
    split
    · next hsingle =>
      obtain ⟨rfl, -⟩ := hsingle
      have hitems := count_newline_doubleQuoted hl.2
      simp [Lexeme.source, hitems]
    · rfl
  | tripleEqual => rfl
  | notDoubleEqual => rfl
  | var => rfl
  | _ => rfl

theorem Rendered.count_newline {l : Lexeme} {t rest : List Char}
    (h : Rendered (· ≠ '\n') l t) (hl : l.Stands rest) : t.count '\n' = l.source.count '\n' := by
  cases h with
  | copied hcopied => exact hcopied.count_newline hl
  | opened => rfl
  | closed => rfl
  | parameter hcopied =>
    rw [← hcopied.count_newline hl]
    simp
  | arrow => rfl
  | blank _ hne => simp [Lexeme.source, hne]

theorem count_newline_take {ls : List Lexeme} {ts : List (List Char)}
    (h : List.Forall₂ (Rendered (· ≠ '\n')) ls ts) (hp : InPlace ls) (n : Nat) :
    (ts.take n).flatten.count '\n' = (sources (ls.take n)).count '\n' := by
  induction h generalizing n with
  | nil => simp
  | cons hr _ ih =>
    cases n with
    | zero => rfl
    | succ n =>
      simp only [List.take_succ_cons, List.flatten_cons, sources_cons, List.count_append]
      rw [hr.count_newline hp.1, ih hp.2]

/-! ## Line comments in front of arrows -/

/-- Blanks without a newline do not follow a line comment, unless a newline follows them. -/
theorem not_isLineComment_of_blanks {k bs rest : List Lexeme} {m : Lexeme} {c : Char}
    (hp : InPlace (k ++ (bs ++ m :: rest))) (hb : Blanks bs) (hn : .other '\n' ∉ bs)
    (hm : m.source.head? = some c) (hc : c ≠ '\n') : ∀ l ∈ k.getLast?, l.isLineComment = false := by
  intro l hl
  obtain ⟨k, rfl⟩ := List.getLast?_eq_some_iff.mp hl
  rw [List.append_assoc] at hp
  cases bs with
  | nil =>
    have hsafe : Safe (m.source ++ sources rest).head? l := hp.stands.safe
    rw [List.head?_append, hm] at hsafe
    exact not_isLineComment_of_safe hsafe hc
  | cons b bs =>
    have hblank := hb b List.mem_cons_self
    have hsafe : Safe (b.source ++ sources (bs ++ m :: rest)).head? l := hp.stands.safe
    cases b with
    | other d =>
      refine not_isLineComment_of_safe hsafe ?_
      rintro rfl
      exact hn List.mem_cons_self
    | _ => cases hblank

theorem NoBreaks.trimsOnly {ls : List Lexeme} (hp : InPlace ls) (h : NoBreaks ls) :
    TrimsOnly (· ≠ '\n') ls := by
  intro before after k bs hls hm htrim
  have hn := h before after k bs hls hm htrim
  refine ⟨fun c hc heq => hn (heq ▸ hc), ?_⟩
  cases htrim with
  | behind hb =>
    rw [hls, List.append_assoc] at hp
    exact not_isLineComment_of_blanks hp hb hn rfl (by decide)
  | left =>
    intro l hl
    rw [List.getLast?_concat] at hl
    cases hl
    rfl
  | @right a inner bs bs' _ hb _ =>
    have hsplit : ls = a ++ .opening '(' :: inner ++ (bs ++ .closing ')' :: (bs' ++ .arrow :: after)) :=
      by simpa using hls
    exact not_isLineComment_of_blanks (hsplit ▸ hp) hb hn rfl (by decide)

/-- **Lines are kept** where arrows take no newline away: the result has as many newlines as the
source, it is made of texts for the lexemes of the source, and the text for a lexeme starts on the
line of the lexeme. -/
theorem lines_kept {source text : String} {ls : List Lexeme} (hr : Reads source.toList ls)
    (h : downlevel source = .ok text) (hb : NoBreaks ls) :
    text.toList.count '\n' = source.toList.count '\n' ∧
      ∃ ts, text.toList = ts.flatten ∧ List.Forall₂ (Rendered (· ≠ '\n')) ls ts ∧
        ∀ n, (Position.start.advance (ts.take n).flatten).line =
          (Position.start.advance (sources (ls.take n))).line := by
  obtain ⟨ts, htext, hwoven⟩ := woven_of_accepted hr h (hb.trimsOnly hr.2)
  have hrendered := hwoven.forall₂
  refine ⟨?_, ts, htext, hrendered, fun n => ?_⟩
  · have hall := count_newline_take hrendered hr.2 ls.length
    rwa [List.take_length, hrendered.length_eq, List.take_length, ← htext, ← hr.1] at hall
  · rw [Position.line_advance, Position.line_advance, count_newline_take hrendered hr.2]

theorem lines_kept_sample : ∃ ls, Reads "(a, b) =>\na + b".toList ls ∧ NoBreaks ls ∧
    "|a, b|\na + b".toList.count '\n' = "(a, b) =>\na + b".toList.count '\n' ∧
      ∃ ts, "|a, b|\na + b".toList = ts.flatten ∧ List.Forall₂ (Rendered (· ≠ '\n')) ls ts ∧
        ∀ n, (Position.start.advance (ts.take n).flatten).line =
          (Position.start.advance (sources (ls.take n))).line := by
  let params : List Lexeme :=
    [.opening '(', .word ['a'], .other ',', .other ' ', .word ['b'], .closing ')', .other ' ']
  let body : List Lexeme :=
    [.other '\n', .word ['a'], .other ' ', .other '+', .other ' ', .word ['b']]
  have hr : Reads "(a, b) =>\na + b".toList (params ++ .arrow :: body) := by
    repeat' first | exact reads_nil | refine reads_cons (by rfl) ?_
  have h : downlevel "(a, b) =>\na + b" = .ok "|a, b|\na + b" :=
    downlevel_eq_ok_iff.mpr ⟨_, _, hr, rfl, rfl, rfl⟩
  -- there is one arrow, and no newline in front of it
  have hb : NoBreaks (params ++ .arrow :: body) := by
    intro before after k bs heq _ htrim hn
    rw [List.append_cons_inj_of_notMem (by decide) (by decide)] at heq
    obtain ⟨rfl, -, -⟩ := heq
    exact absurd (htrim.starts.subset (List.mem_append_right k hn)) (by decide)
  exact ⟨_, hr, hb, lines_kept hr h hb⟩

/-- **A parameter list on lines of its own loses the newlines at its ends**, and what follows it
moves up two lines. -/
theorem line_lost :
    downlevel "let f = (\n  a\n) => a;\nf(1)" = .ok "let f = |a| a;\nf(1)" ∧
      "let f = |a| a;\nf(1)".toList.count '\n' ≠
        "let f = (\n  a\n) => a;\nf(1)".toList.count '\n' := by
  let ls : List Lexeme := [.word "let".toList, .other ' ', .word ['f'], .other ' ', .other '=',
    .other ' ', .opening '(', .other '\n', .other ' ', .other ' ', .word ['a'], .other '\n',
    .closing ')', .other ' ', .arrow, .other ' ', .word ['a'], .other ';', .other '\n', .word ['f'],
    .opening '(', .digits ['1'], .closing ')']
  have hr : Reads "let f = (\n  a\n) => a;\nf(1)".toList ls := by
    repeat' first | exact reads_nil | refine reads_cons (by rfl) ?_
  exact ⟨downlevel_eq_ok_iff.mpr ⟨ls, _, hr, rfl, rfl, rfl⟩, by decide⟩

end PackHost.Source
