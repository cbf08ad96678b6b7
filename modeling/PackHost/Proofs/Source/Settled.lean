import Mathlib.Data.List.Infix
import PackHost.Proofs.Source.Image
import PackHost.Proofs.Source.Within

/-!
# The result of the pass is its own result

The result is read as the lexemes of the source are written, one by one (`reread`). What is written
for a lexeme never joins its neighbours, unless an equals sign is left in front of an equals or a
greater-than sign (`reads_result`). A pass over the result writes the same text once more
(`result_kept`).
-/

namespace PackHost.Source

/-- The text starts somewhere in the code of the lexemes, which is all but comments and literals. -/
def OccursInCode (text : List Char) : List Lexeme → Prop
  | [] => False
  | l :: ls => (l.isMark = false ∧ ∃ v ∈ l.source.tails, v ≠ [] ∧ text <+: v ++ sources ls) ∨
      OccursInCode text ls

instance decidableOccursInCode (text : List Char) : (ls : List Lexeme) → Decidable (OccursInCode text ls)
  | [] => inferInstanceAs (Decidable False)
  | l :: ls =>
    have := decidableOccursInCode text ls
    inferInstanceAs (Decidable ((l.isMark = false ∧
      ∃ v ∈ l.source.tails, v ≠ [] ∧ text <+: v ++ sources ls) ∨ OccursInCode text ls))

/-- No arrow is in the code, and no run of equals signs that is still one of the long operators when
it has lost one of them. -/
def WithoutRuns (ls : List Lexeme) : Prop :=
  ∀ operator ∈ ["=>", "====", "!==="], ¬ OccursInCode operator.toList ls

instance (ls : List Lexeme) : Decidable (WithoutRuns ls) :=
  inferInstanceAs (Decidable (∀ operator ∈ ["=>", "====", "!==="], ¬ OccursInCode operator.toList ls))

namespace WithoutRuns

variable {l : Lexeme} {ls : List Lexeme}

theorem tail (h : WithoutRuns (l :: ls)) : WithoutRuns ls :=
  fun operator hmem hin => h operator hmem (.inr hin)

theorem not_prefix (h : WithoutRuns (l :: ls)) (hm : l.isMark = false) {u v : List Char}
    (hl : l.source = u ++ v) (hv : v ≠ []) (operator : String)
    (hmem : operator ∈ ["=>", "====", "!==="]) : ¬ operator.toList <+: v ++ sources ls :=
  fun hpre => h operator hmem
    (.inl ⟨hm, v, (List.mem_tails v _).mpr (hl ▸ List.suffix_append u v), hv, hpre⟩)

theorem not_arrow (h : WithoutRuns ls) : .arrow ∉ ls := by
  induction ls with
  | nil => exact List.not_mem_nil
  | cons l ls ih =>
    refine List.not_mem_cons_of_ne_of_not_mem (fun heq => ?_) (ih h.tail)
    subst heq
    exact h.not_prefix (u := []) rfl rfl (by decide) "=>" (by decide)
      (List.prefix_append _ _)

/-- Behind one of the long operators no part of an operator comes. -/
theorem head (h : WithoutRuns (l :: ls)) (hl : l = .tripleEqual ∨ l = .notDoubleEqual) :
    (sources ls).head? ≠ some '=' ∧ (sources ls).head? ≠ some '>' := by
  cases hs : sources ls with
  | nil => exact ⟨by simp, by simp⟩
  | cons c rest =>
    constructor
    · rintro ⟨⟩
      rcases hl with rfl | rfl
      · exact h.not_prefix (u := []) rfl rfl (by decide) "====" (by decide)
          (hs ▸ ⟨rest, rfl⟩)
      · exact h.not_prefix (u := []) rfl rfl (by decide) "!===" (by decide)
          (hs ▸ ⟨rest, rfl⟩)
    · rintro ⟨⟩
      rcases hl with rfl | rfl
      · exact h.not_prefix (u := ['=', '=']) rfl rfl (by decide) "=>" (by decide)
          (hs ▸ ⟨rest, rfl⟩)
      · exact h.not_prefix (u := ['!', '=']) rfl rfl (by decide) "=>" (by decide)
          (hs ▸ ⟨rest, rfl⟩)

end WithoutRuns

/-! ## The first characters of what is written -/

/-- What is written for a lexeme starts like it, up to the kind of quotes and the first letter of
`var` and `let`. -/
theorem Lexeme.image_cases (before after : List Lexeme) (l : Lexeme) :
    l.image before after = l.source ∨ l = .tripleEqual ∨ ∃ c u d v, l.source = c :: u ∧
      l.image before after = d :: v ∧ (c, d) ∈ [('v', 'l'), ('\'', '"'), ('!', '!')] := by
  cases l with
  | word text =>
    by_cases h : text = "var".toList ∧ Declares before after
    · obtain ⟨rfl, hdeclares⟩ := h
      exact .inr (.inr ⟨_, _, _, _, rfl, if_pos ⟨rfl, hdeclares⟩, by decide⟩)
    · exact .inl (if_neg h)
  | literal quote items =>
    by_cases h : quote = '\'' ∧ items.length ≠ 1
    · obtain ⟨rfl, hlength⟩ := h
      exact .inr (.inr ⟨_, _, _, _, rfl, congrArg Lexeme.source (converted_single hlength), by decide⟩)
    · exact .inl (congrArg Lexeme.source (converted_other h))
  | tripleEqual => exact .inr (.inl rfl)
  | notDoubleEqual => exact .inr (.inr ⟨_, _, _, _, rfl, rfl, by decide⟩)
  | _ => exact .inl rfl

section Images

variable {p Q : Char → Bool} {before ls : List Lexeme}

/-- The first character of a kind is as good in what is written as in the source. -/
theorem images_find? (hp : ['v', 'l', '\'', '"', '=', '!'].all p = true) (letter : Q 'l' = Q 'v')
    (quotes : Q '"' = Q '\'') : ((images before ls).find? p).map Q = ((sources ls).find? p).map Q := by
  have hp := List.all_eq_true.mp hp
  induction ls generalizing before with
  | nil => rfl
  | cons l ls ih =>
    rw [images, sources_cons]
    rcases l.image_cases before ls with h | rfl | ⟨c, u, d, v, hsource, himage, hmem⟩
    · rw [h, List.find?_append, List.find?_append]
      cases l.source.find? p with
      | some c => rfl
      | none => simpa using ih
    · have hequal : p '=' = true := hp '=' (by decide)
      simp [Lexeme.image, Lexeme.source, hequal]
    · rw [himage, hsource]
      simp only [List.mem_cons, Prod.mk.injEq, List.not_mem_nil, or_false] at hmem
      rcases hmem with ⟨rfl, rfl⟩ | ⟨rfl, rfl⟩ | ⟨rfl, rfl⟩ <;> simp [hp, letter, quotes]

theorem head?_eq_find? (text : List Char) : text.head? = text.find? fun _ => true := by
  cases text <;> rfl

/-- What is written starts with a character of the class if the source does, and with one that is
not of the class if the source does. -/
theorem images_head {b : Bool} (letter : Q 'l' = Q 'v') (quotes : Q '"' = Q '\'')
    (h : ∀ c ∈ (sources ls).head?, Q c = b) : ∀ c ∈ (images before ls).head?, Q c = b := by
  intro c hc
  have hfind : (images before ls).head?.map Q = (sources ls).head?.map Q := by
    rw [head?_eq_find?, head?_eq_find?]
    exact images_find? rfl letter quotes
  rw [Option.mem_def.mp hc] at hfind
  obtain ⟨d, hd, hclass⟩ := Option.map_eq_some_iff.mp hfind.symm
  rw [← hclass]
  exact h d hd

section Same

variable {d : Char} (hd : d ∉ ['v', 'l', '\'', '"'])

include hd

theorem images_find?_eq_some (hp : ['v', 'l', '\'', '"', '=', '!'].all p = true) :
    (images before ls).find? p = some d ↔ (sources ls).find? p = some d := by
  have hclass : ∀ o : Option Char, o = some d ↔ o.map (· == d) = some true := by
    rintro (_ | c) <;> simp
  rw [hclass, images_find? (Q := (· == d)) hp (by grind) (by grind), ← hclass]

theorem images_firstVisible? :
    firstVisible? (images before ls) = some d ↔ firstVisible? (sources ls) = some d :=
  images_find?_eq_some hd (by decide)

theorem images_head? : (images before ls).head? = some d ↔ (sources ls).head? = some d := by
  rw [head?_eq_find?, head?_eq_find?]
  exact images_find?_eq_some hd rfl

end Same

/-- Two equals signs start what is written only if they start the source. -/
theorem equals_of_images (h : ['=', '='] <+: images before ls) : ['=', '='] <+: sources ls := by
  induction ls generalizing before with
  | nil => exact h
  | cons l ls ih =>
    rw [images] at h
    rw [sources_cons]
    rcases l.image_cases before ls with himage | rfl | ⟨c, u, d, v, -, himage, hmem⟩
    · rw [himage] at h
      exact equals_append (images_head? (by decide)).mp ih h
    · exact ⟨'=' :: sources ls, rfl⟩
    · -- none of the other characters that are put in place of one is an equals sign
      rw [himage] at h
      obtain ⟨rest, hrest⟩ := h
      obtain ⟨rfl, -⟩ := List.cons_eq_cons.mp hrest
      exact absurd hmem (by simp)

end Images

/-! ## Reading the result -/

/-- What is written for a lexeme between the given ones, as lexemes. -/
def Lexeme.reread (before after : List Lexeme) : Lexeme → List Lexeme
  | .word text => [.word ((Lexeme.word text).image before after)]
  | .tripleEqual => [.other '=', .other '=']
  | .notDoubleEqual => [.other '!', .other '=']
  | l => [l.converted]

/-- What is written for the lexemes behind the given ones, as lexemes. -/
def reread (before : List Lexeme) : List Lexeme → List Lexeme
  | [] => []
  | l :: after => l.reread before after ++ reread (before ++ [l]) after

theorem Lexeme.sources_reread (before after : List Lexeme) (l : Lexeme) :
    sources (l.reread before after) = l.image before after := by
  cases l <;> simp [Lexeme.reread, Lexeme.image, Lexeme.source, Lexeme.converted]

theorem sources_reread (before ls : List Lexeme) : sources (reread before ls) = images before ls := by
  induction ls generalizing before with
  | nil => rfl
  | cons l ls ih => rw [reread, images, sources_append, l.sources_reread, ih]

/-- An equals sign and an exclamation mark are read alone in front of one equals sign. -/
theorem stands_equal {c : Char} (hc : c = '=' ∨ c = '!') {rest : List Char}
    (h : rest.head? ≠ some '=') : (Lexeme.other c).Stands ('=' :: rest) := by
  have hequals : ¬ ['=', '='] <+: '=' :: rest := by
    rintro ⟨more, hmore⟩
    obtain ⟨-, hrest⟩ := List.cons_eq_cons.mp hmore
    exact h (congrArg List.head? hrest.symm)
  rcases hc with rfl | rfl <;>
    exact ⟨by decide, fun hc => absurd hc (by decide), fun _ => ⟨by simp, hequals⟩, fun _ => hequals⟩

theorem stands_last_equal {rest : List Char} (h : rest.head? ≠ some '=' ∧ rest.head? ≠ some '>') :
    (Lexeme.other '=').Stands rest := by
  have hequals : ¬ ['=', '='] <+: rest := by
    rintro ⟨more, rfl⟩
    exact h.1 rfl
  exact ⟨by decide, fun hc => absurd hc (by decide), fun _ => ⟨h.2, hequals⟩, fun _ => hequals⟩

/-- What is written for a lexeme is read as it is meant, in front of what is written behind it. -/
theorem Lexeme.Stands.reread {before after : List Lexeme} {l : Lexeme} (hl : l.Stands (sources after))
    (hruns : WithoutRuns (l :: after)) :
    InFront (images (before ++ [l]) after) (l.reread before after) := by
  have hword : (∀ c ∈ (sources after).head?, isWordPart c = false) →
      ∀ c ∈ (images (before ++ [l]) after).head?, isWordPart c = false :=
    images_head (by decide) (by decide)
  have hne : ∀ d, d ∉ ['v', 'l', '\'', '"'] → (sources after).head? ≠ some d →
      (images (before ++ [l]) after).head? ≠ some d :=
    fun d hd => mt (images_head? hd).mp
  have hend : l = .tripleEqual ∨ l = .notDoubleEqual →
      (images (before ++ [l]) after).head? ≠ some '=' ∧
        (images (before ++ [l]) after).head? ≠ some '>' :=
    fun h => (hruns.head h).imp (hne '=' (by decide)) (hne '>' (by decide))
  cases l with
  | lineComment text =>
    obtain ⟨hbody, hline, hstop⟩ := hl
    have hclass : ∀ c ∈ (images (before ++ [.lineComment text]) after).head?, (c == '\n') = true :=
      images_head (Q := (· == '\n')) rfl rfl (by simpa using hstop)
    exact ⟨⟨hbody, hline, by simpa using hclass⟩, trivial⟩
  | word text =>
    refine ⟨?_, trivial⟩
    unfold Lexeme.image
    dsimp only
    split
    · exact ⟨⟨'l', ['e', 't'], rfl, by decide⟩, List.all_eq_true.mp (by decide), hword hl.2.2⟩
    · exact ⟨hl.1, hl.2.1, hword hl.2.2⟩
  | digits text => exact ⟨⟨hl.1, hl.2.1, hword hl.2.2⟩, trivial⟩
  | literal quote items => exact ⟨stands_converted rfl hl trivial, trivial⟩
  | arrow => exact absurd List.mem_cons_self hruns.not_arrow
  | tripleEqual =>
    have hlast := hend (.inl rfl)
    exact ⟨stands_equal (.inl rfl) hlast.1, stands_last_equal hlast, trivial⟩
  | notDoubleEqual =>
    have hlast := hend (.inr rfl)
    exact ⟨stands_equal (.inr rfl) hlast.1, stands_last_equal hlast, trivial⟩
  | other c =>
    obtain ⟨hclass, slash, equal, bang⟩ := hl
    have hequals : ¬ ['=', '='] <+: sources after →
        ¬ ['=', '='] <+: images (before ++ [.other c]) after := mt equals_of_images
    refine ⟨⟨hclass, fun hc => ?_, fun hc => ?_, fun hc => hequals (bang hc)⟩, trivial⟩
    · exact ⟨hne '/' (by decide) (slash hc).1, hne '*' (by decide) (slash hc).2⟩
    · exact ⟨hne '>' (by decide) (equal hc).1, hequals (equal hc).2⟩
  | _ => exact ⟨hl, trivial⟩

theorem inPlace_reread {before ls : List Lexeme} (hp : InPlace ls) (hruns : WithoutRuns ls) :
    InPlace (reread before ls) := by
  induction ls generalizing before with
  | nil => trivial
  | cons l ls ih =>
    rw [reread, ← inFront_nil, inFront_append, List.append_nil, sources_reread, inFront_nil]
    exact ⟨hp.1.reread hruns, ih hp.2 hruns.tail⟩

/-! ## The second pass -/

theorem converted_converted (l : Lexeme) : l.converted.converted = l.converted := by
  rcases converted_eq l with h | ⟨items, rfl, h⟩
  · rw [h, h]
  · rw [h]
    exact converted_other fun hsingle => absurd hsingle.1 (by decide)

theorem Scan.step_let {s : Scan} {p : Position} {rest : List Char} :
    s.step p rest (.word "let".toList) = .ok (s.write "let".toList) := by
  simp [step, word]

namespace Within

variable {before ls after : List Lexeme} {l : Lexeme} {s s' t : Scan} {p q : Position}

/-- **The second pass does with what was written for a lexeme what the first pass did with it.** -/
theorem reread_step (h : Within [] [] s t) (hc : Control before s) (ha : l ≠ .arrow)
    (hs : s.step p (sources after) l = .ok s') :
    ∃ t', t.feed q (images (before ++ [l]) after) (l.reread before after) = .ok t' ∧
      Within [] [] s' t' := by
  -- what is not rewritten is met with the same brackets, the same dot and the same visible character
  have hsame : ∃ t', t.step q (images (before ++ [l]) after) l = .ok t' ∧ Within [] [] s' t' := by
    obtain ⟨t', ht, hwithin, -⟩ := h.step (q := q) stops_nil ha (images_firstVisible? (by decide))
      (images_firstVisible? (by decide)).mp hs
    exact ⟨t', ht, hwithin⟩
  cases l with
  | word text =>
    by_cases hvar : text = "var".toList ∧ Declares before after
    · obtain ⟨rfl, hdeclares⟩ := hvar
      have hdot : s.afterDot = false := Bool.eq_false_iff.mpr (mt hc.dot.mp hdeclares.1)
      have hlet : (Lexeme.word "var".toList).reread before after = [.word "let".toList] := by
        rw [Lexeme.reread, Lexeme.image, if_pos ⟨rfl, hdeclares⟩]
      rw [Scan.step_word_eq hs, if_pos ⟨rfl, hdot, hdeclares.2⟩, Scan.copy_eq_write rfl]
      refine ⟨_, ?_, h.write _⟩
      rw [hlet, Scan.feed_singleton, Scan.step_let]
    · have hkeep : (Lexeme.word text).reread before after = [.word text] := by
        rw [Lexeme.reread, Lexeme.image, if_neg hvar]
      rwa [hkeep, Scan.feed_singleton]
  | literal quote items =>
    rw [Scan.step_literal rfl] at hs
    cases hs
    refine ⟨_, ?_, h.write _⟩
    change t.feed q _ [(Lexeme.literal quote items).converted] = _
    rw [Scan.feed_singleton, Scan.step_literal (isLiteral_converted _), converted_converted]
  | tripleEqual =>
    cases hs
    exact ⟨_, rfl, (h.write ['=']).write ['=']⟩
  | notDoubleEqual =>
    cases hs
    exact ⟨_, rfl, (h.write ['!']).write ['=']⟩
  | arrow => exact absurd rfl ha
  | _ => rwa [← Scan.feed_singleton] at hsame

theorem reread_feed (h : Within [] [] s t) (hc : Control before s) (hp : InPlace ls)
    (ha : .arrow ∉ ls) (hs : s.feed p [] ls = .ok s') :
    ∃ t', t.feed q [] (reread before ls) = .ok t' ∧ Within [] [] s' t' := by
  induction ls generalizing before s t p q with
  | nil =>
    cases hs
    exact ⟨t, rfl, h⟩
  | cons l ls ih =>
    obtain ⟨hne, harrow⟩ := List.ne_and_not_mem_of_not_mem_cons ha
    obtain ⟨m, hstep, hfeed⟩ := Scan.feed_cons_eq_ok.mp hs
    rw [List.append_nil] at hstep
    obtain ⟨m', hm', hm⟩ := h.reread_step (q := q) hc hne.symm hstep
    have hcm : Control (before ++ [l]) m := hc.step hp.1.source_ne_nil hstep
    obtain ⟨t', ht', hwithin⟩ := ih hm hcm hp.2 harrow hfeed
    refine ⟨t', ?_, hwithin⟩
    rw [Source.reread, Scan.feed_append_eq_ok, List.append_nil, sources_reread]
    exact ⟨m', hm', ht'⟩

end Within

/-- The result is read as the lexemes of the source are written. -/
theorem reads_result {source text : String} {ls : List Lexeme} (hr : Reads source.toList ls)
    (hruns : WithoutRuns ls) (h : downlevel source = .ok text) : Reads text.toList (reread [] ls) := by
  obtain ⟨s, hs, -, rfl⟩ := exists_passed hr h
  have himages : images [] ls = s.out.reverse := by
    have hall := hs.images (by simpa using hr.2) hruns.not_arrow
    rwa [List.append_nil, images, List.append_nil] at hall
  refine ⟨?_, inPlace_reread hr.2 hruns⟩
  rw [String.toList_ofList, sources_reread, himages]

/-- **The result of the pass is its own result**: where the code of a source has no arrow and no run
of four equals signs, or of an exclamation mark and three of them, a pass over the result writes it
again. -/
theorem result_kept {source text : String} {ls : List Lexeme} (hr : Reads source.toList ls)
    (hruns : WithoutRuns ls) (h : downlevel source = .ok text) : downlevel text = .ok text := by
  have hread : Reads text.toList (reread [] ls) := reads_result hr hruns h
  obtain ⟨s, hs, hstack, rfl⟩ := exists_passed hr h
  obtain ⟨t, ht, hwithin⟩ := (Within.refl Scan.start).reread_feed (q := Position.start) Control.start
    hr.2 hruns.not_arrow hs
  refine downlevel_eq_ok_iff.mpr ⟨reread [] ls, t, hread, ht, ?_, ?_⟩
  · obtain ⟨inner, hinner, hlifted⟩ := hwithin.stack
    rw [hstack] at hlifted
    cases hlifted
    exact hinner
  · rw [hwithin.out, List.append_nil]

/-- What may not be in the code stands in a literal and in a comment here. -/
theorem result_kept_sample :
    downlevel "var a = '\"=>' === b.var; // ====" = .ok "let a = \"\\\"=>\" == b.var; // ====" ∧
      downlevel "let a = \"\\\"=>\" == b.var; // ====" =
        .ok "let a = \"\\\"=>\" == b.var; // ====" := by
  let start : List Lexeme := [.word "var".toList, .other ' ', .word ['a'], .other ' ', .other '=',
    .other ' ']
  let literal : Lexeme := .literal '\'' [.plain '"', .plain '=', .plain '>']
  let rest : List Lexeme := [.other ' ', .tripleEqual, .other ' ', .word ['b'], .other '.',
    .word "var".toList, .other ';', .other ' ', .lineComment "// ====".toList]
  have hrest : Reads " === b.var; // ====".toList rest := by
    repeat' first | exact reads_nil | refine reads_cons (by rfl) ?_
  have hliteral : Reads "'\"=>' === b.var; // ====".toList (literal :: rest) :=
    ⟨rfl, ⟨rfl, by simp [AreItems]⟩, hrest.2⟩
  have hr : Reads "var a = '\"=>' === b.var; // ====".toList (start ++ literal :: rest) := by
    repeat' first | exact hliteral | refine reads_cons (by rfl) ?_
  have h : downlevel "var a = '\"=>' === b.var; // ====" =
      .ok "let a = \"\\\"=>\" == b.var; // ====" :=
    downlevel_eq_ok_iff.mpr ⟨_, _, hr, rfl, rfl, rfl⟩
  exact ⟨h, result_kept hr (by decide) h⟩

end PackHost.Source
