import PackHost.Proofs.Source.Weave

/-!
# The comments and literals of the result

* `marks_kept`: where no arrow has to take away what follows a line comment, reading the result
  gives the comments and literals of the source, and no other lexeme becomes a part of one;
* `comment_swallows`: without that condition it fails. A line comment that loses its newline goes on
  over the code behind it.
-/

namespace PackHost.Source

def Lexeme.isComment : Lexeme → Bool
  | .lineComment _ => true
  | .blockComment _ => true
  | _ => false

def Lexeme.isLiteral : Lexeme → Bool
  | .literal _ _ => true
  | _ => false

def Lexeme.isMark (l : Lexeme) : Bool := l.isComment || l.isLiteral

/-- The item of a single-quoted literal in a double-quoted one. -/
def Item.converted : Item → Item
  | .plain c => if c = '"' then .escape '"' [] else .plain c
  | .escape c digits => if c = '\'' then .plain '\'' else .escape c digits

/-- The lexeme with double quotes, if it is a literal in single quotes that does not hold exactly
one item. -/
def Lexeme.converted : Lexeme → Lexeme
  | .literal quote items =>
    if quote = '\'' ∧ items.length ≠ 1 then .literal '"' (items.map Item.converted)
    else .literal quote items
  | l => l

/-- No line comment stands in front of blanks that an arrow outside of `switch` bodies takes
away. -/
def CommentsClear (ls : List Lexeme) : Prop :=
  ∀ before after k bs, ls = before ++ .arrow :: after → ¬ InMarked before → Trimmed before k bs →
    ∀ l ∈ k.getLast?, l.isLineComment = false

/-- The lexemes of a source, the texts that are written for them, and the lexemes of the result: a
comment or a literal is written as one, and the code between two of them is written as code. -/
inductive Aligned : List Lexeme → List (List Char) → List Lexeme → Prop
  | nil : Aligned [] [] []
  | mark {l : Lexeme} {ls ms : List Lexeme} {ts : List (List Char)} : l.isMark = true →
      Aligned ls ts ms → Aligned (l :: ls) (l.converted.source :: ts) (l.converted :: ms)
  | code {cs ls ns ms : List Lexeme} {us ts : List (List Char)} :
      (∀ l ∈ cs, l.isMark = false) → (∀ l ∈ ns, l.isMark = false) → us.length = cs.length →
      us.flatten = sources ns → Aligned ls ts ms → Aligned (cs ++ ls) (us ++ ts) (ns ++ ms)

/-! ## Conversion -/

theorem raw_converted (item : Item) : item.converted.raw = item.doubleQuoted := by
  cases item with
  | plain c => by_cases hc : c = '"' <;> simp [Item.converted, Item.doubleQuoted, Item.raw, hc]
  | escape c digits =>
    by_cases hc : c = '\'' <;> simp [Item.converted, Item.doubleQuoted, Item.raw, hc]

theorem converted_single {items : List Item} (h : items.length ≠ 1) :
    (Lexeme.literal '\'' items).converted = .literal '"' (items.map Item.converted) :=
  if_pos ⟨rfl, h⟩

theorem converted_other {quote : Char} {items : List Item}
    (h : ¬ (quote = '\'' ∧ items.length ≠ 1)) :
    (Lexeme.literal quote items).converted = .literal quote items :=
  if_neg h

theorem writeLiteral_eq_source (quote : Char) (items : List Item) :
    writeLiteral quote items = (Lexeme.literal quote items).converted.source := by
  by_cases h : quote = '\'' ∧ items.length ≠ 1
  · obtain ⟨rfl, hlength⟩ := h
    rw [converted_single hlength, writeLiteral, if_pos ⟨rfl, hlength⟩]
    simp [Lexeme.source, List.flatMap_map, raw_converted]
  · rw [converted_other h, writeLiteral, if_neg h]

theorem Scan.step_literal {s : Scan} {p : Position} {rest : List Char} {l : Lexeme}
    (h : l.isLiteral = true) : s.step p rest l = .ok (s.write l.converted.source) := by
  cases l with
  | literal quote items => rw [← writeLiteral_eq_source]; rfl
  | _ => cases h

/-- Conversion changes no hexadecimal digit behind a short escape. -/
theorem head_converted {items : List Item}
    (h : ∀ d ∈ (items.flatMap Item.raw).head?, Text.isHexDigit d = false) :
    ∀ d ∈ ((items.map Item.converted).flatMap Item.raw).head?, Text.isHexDigit d = false := by
  cases items with
  | nil => exact h
  | cons item items =>
    cases item with
    | plain c =>
      unfold Item.converted
      by_cases hc : c = '"'
      · rintro d hd
        simp [hc, Item.raw] at hd
        subst hd
        decide
      · simpa [hc, Item.raw] using h
    | escape c digits =>
      unfold Item.converted
      intro d hd
      by_cases hc : c = '\''
      · simp [hc, Item.raw] at hd
        subst hd
        decide
      · simp [hc, Item.raw] at hd
        subst hd
        decide

theorem areItems_converted {items : List Item} (h : AreItems '\'' items) :
    AreItems '"' (items.map Item.converted) := by
  induction items with
  | nil => exact trivial
  | cons item items ih =>
    cases item with
    | plain c =>
      obtain ⟨hquote, hback, hline, hitems⟩ := h
      by_cases hc : c = '"'
      · subst hc
        exact ⟨fun d hd => absurd hd List.not_mem_nil, Nat.le_refl 0,
          fun hlt => absurd hlt (Nat.lt_irrefl 0), ih hitems⟩
      · have hkeep : Item.converted (.plain c) = .plain c := if_neg hc
        rw [List.map_cons, hkeep]
        exact ⟨hc, hback, fun heq => absurd (hline heq) (by decide), ih hitems⟩
    | escape c digits =>
      obtain ⟨hex, few, all, hitems⟩ := h
      by_cases hc : c = '\''
      · subst hc
        exact ⟨by decide, by decide, by decide, ih hitems⟩
      · have hkeep : Item.converted (.escape c digits) = .escape c digits := if_neg hc
        rw [List.map_cons, hkeep]
        exact ⟨hex, few, fun hlt => head_converted (all hlt), ih hitems⟩

theorem stands_converted {l : Lexeme} {rest rest' : List Char} (hm : l.isMark = true)
    (h : l.Stands rest) (hs : Safe rest'.head? l) : l.converted.Stands rest' := by
  cases l with
  | lineComment text => exact ⟨h.1, h.2.1, hs⟩
  | blockComment text => exact h
  | literal quote items =>
    by_cases hsingle : quote = '\'' ∧ items.length ≠ 1
    · obtain ⟨rfl, hlength⟩ := hsingle
      rw [converted_single hlength]
      exact ⟨rfl, areItems_converted h.2⟩
    · rw [converted_other hsingle]
      exact h
  | _ => cases hm

/-! ## Code is read as code -/

/-- In front of `rest`, no literal and no comment starts in the text. -/
def IsCode (rest : List Char) : List Char → Prop
  | [] => True
  | c :: u => isQuote c = false ∧
    (c = '/' → (u ++ rest).head? ≠ some '/' ∧ (u ++ rest).head? ≠ some '*') ∧ IsCode rest u

/-- A character that is no part of a lexeme of code that starts before it. -/
def Separates (c : Char) : Prop := c ≠ '=' ∧ c ≠ '>' ∧ isWordPart c = false

theorem IsCode.of_append {rest u v : List Char} (h : IsCode rest (u ++ v)) : IsCode rest v := by
  induction u with
  | nil => exact h
  | cons c u ih => exact ih h.2.2

theorem exists_of_equals_prefix {u rest : List Char} (hr : ∀ c ∈ rest.head?, Separates c)
    (h : ['=', '='] <+: u ++ rest) : ∃ v, u = '=' :: '=' :: v := by
  have hnot : ∀ t : List Char, rest ≠ '=' :: t := by
    rintro t rfl
    exact (hr '=' rfl).1 rfl
  obtain ⟨t, ht⟩ := h
  match u with
  | [] => exact absurd ht.symm (hnot _)
  | [c] =>
    obtain ⟨-, hrest⟩ := List.cons_eq_cons.mp ht
    exact absurd hrest.symm (hnot t)
  | c :: d :: v =>
    obtain ⟨rfl, hrest⟩ := List.cons_eq_cons.mp ht
    obtain ⟨rfl, -⟩ := List.cons_eq_cons.mp hrest
    exact ⟨v, rfl⟩

theorem run_in_code {u rest : List Char} (hr : ∀ c ∈ rest.head?, Separates c) :
    ∃ v, u = u.takeWhile isWordPart ++ v ∧ (∀ d ∈ u.takeWhile isWordPart, isWordPart d = true) ∧
      ∀ d ∈ (v ++ rest).head?, isWordPart d = false := by
  refine ⟨u.dropWhile isWordPart, List.takeWhile_append_dropWhile.symm,
    fun d hd => List.mem_takeWhile_imp hd, fun d hd => ?_⟩
  rw [List.head?_append] at hd
  cases hv : (u.dropWhile isWordPart).head? with
  | none =>
    rw [hv, Option.none_or] at hd
    exact (hr d hd).2.2
  | some e =>
    rw [hv, Option.some_or] at hd
    cases hd
    exact head_dropWhile_false d hv

theorem exists_code_lexeme {c : Char} {u rest : List Char} (h : IsCode rest (c :: u))
    (hr : ∀ d ∈ rest.head?, Separates d) :
    ∃ (l : Lexeme) (v : List Char), c :: u = l.source ++ v ∧ l.isMark = false ∧
      l.Stands (v ++ rest) := by
  obtain ⟨hquote, hslash, -⟩ := h
  by_cases hequals : (c = '=' ∨ c = '!') ∧ ['=', '='] <+: u ++ rest
  · obtain ⟨hc, hprefix⟩ := hequals
    obtain ⟨v, rfl⟩ := exists_of_equals_prefix hr hprefix
    rcases hc with rfl | rfl
    · exact ⟨.tripleEqual, v, rfl, rfl, trivial⟩
    · exact ⟨.notDoubleEqual, v, rfl, rfl, trivial⟩
  by_cases harrow : c = '=' ∧ (u ++ rest).head? = some '>'
  · obtain ⟨rfl, hhead⟩ := harrow
    cases u with
    | nil => exact absurd rfl (hr '>' hhead).2.1
    | cons d v =>
      obtain rfl : d = '>' := Option.some.inj hhead
      exact ⟨.arrow, v, rfl, rfl, trivial⟩
  by_cases hopen : isOpening c = true
  · exact ⟨.opening c, u, rfl, rfl, hopen⟩
  by_cases hclose : isClosing c = true
  · exact ⟨.closing c, u, rfl, rfl, hclose⟩
  obtain ⟨v, hu, hrun, hstop⟩ := run_in_code (u := u) hr
  by_cases hstart : isWordStart c = true
  · refine ⟨.word (c :: u.takeWhile isWordPart), v, ?_, rfl, ⟨c, _, rfl, hstart⟩, ?_, hstop⟩
    · rw [Lexeme.source, List.cons_append, ← hu]
    · exact List.forall_mem_cons.mpr ⟨isWordPart_of_isWordStart hstart, hrun⟩
  by_cases hdigit : c.isDigit = true
  · refine ⟨.digits (c :: u.takeWhile isWordPart), v, ?_, rfl, ⟨c, _, rfl, hdigit, ?_⟩, ?_, hstop⟩
    · rw [Lexeme.source, List.cons_append, ← hu]
    · simpa using hstart
    · exact List.forall_mem_cons.mpr ⟨isWordPart_of_isDigit hdigit, hrun⟩
  refine ⟨.other c, u, rfl, rfl, ⟨hquote, ?_, ?_, ?_, ?_⟩, hslash,
    fun hc => ⟨?_, fun hprefix => hequals ⟨.inl hc, hprefix⟩⟩,
    fun hc hprefix => hequals ⟨.inr hc, hprefix⟩⟩
  · simpa using hopen
  · simpa using hclose
  · simpa using hstart
  · simpa using hdigit
  · exact fun hhead => harrow ⟨hc, hhead⟩

theorem exists_code_lexemes {u : List Char} {ms : List Lexeme} (h : IsCode (sources ms) u)
    (hr : ∀ d ∈ (sources ms).head?, Separates d) (hp : InPlace ms) :
    ∃ ns, (∀ n ∈ ns, n.isMark = false) ∧ u = sources ns ∧ InPlace (ns ++ ms) := by
  induction hn : u.length using Nat.strong_induction_on generalizing u with
  | _ n ih =>
    subst hn
    cases u with
    | nil => exact ⟨[], fun n hn => absurd hn List.not_mem_nil, rfl, hp⟩
    | cons c u =>
      obtain ⟨l, v, hu, hcode, hl⟩ := exists_code_lexeme h hr
      have hpos := List.length_pos_iff.mpr hl.source_ne_nil
      have hlen : v.length < (c :: u).length := by
        rw [hu, List.length_append]
        omega
      rw [hu] at h
      obtain ⟨ns, hns, rfl, hplace⟩ := ih v.length hlen h.of_append rfl
      rw [← sources_append] at hl
      exact ⟨l :: ns, List.forall_mem_cons.mpr ⟨hcode, hns⟩, hu, hl, hplace⟩

/-! ## What is written for code -/

theorem IsCode.append {rest t u : List Char} (ht : ∀ c ∈ t, isQuote c = false ∧ c ≠ '/')
    (h : IsCode rest u) : IsCode rest (t ++ u) := by
  induction t with
  | nil => exact h
  | cons c t ih =>
    obtain ⟨⟨hquote, hslash⟩, ht⟩ := List.forall_mem_cons.mp ht
    exact ⟨hquote, fun heq => absurd heq hslash, ih ht⟩

theorem word_is_code {c : Char} (h : isWordPart c = true) : isQuote c = false ∧ c ≠ '/' := by
  constructor
  · rw [Bool.eq_false_iff]
    intro hquote
    rcases eq_of_isQuote hquote with rfl | rfl | rfl <;> exact absurd h (by decide)
  · rintro rfl
    exact absurd h (by decide)

theorem code_of_all {t : List Char} (h : t.all (fun c => !isQuote c && c != '/') = true) :
    ∀ c ∈ t, isQuote c = false ∧ c ≠ '/' :=
  fun c hc => by simpa using List.all_eq_true.mp h c hc

/-- The text for a lexeme of code has no quotes, and a slash is written for a slash only. -/
theorem Rendered.code {lost : Char → Prop} {l : Lexeme} {t rest : List Char}
    (h : Rendered lost l t) (hl : l.Stands rest) (hm : l.isMark = false) :
    (∀ c ∈ t, isQuote c = false ∧ c ≠ '/') ∨ l = .other '/' ∧ t = ['/'] := by
  have hcopied : ∀ {t}, Copied l t →
      (∀ c ∈ t, isQuote c = false ∧ c ≠ '/') ∨ l = .other '/' ∧ t = ['/'] := by
    intro t ht
    cases ht with
    | lineComment => cases hm
    | blockComment => cases hm
    | literal => cases hm
    | opening b => rcases eq_of_isOpening hl with rfl | rfl | rfl <;> exact .inl (code_of_all (by decide))
    | closing b => rcases eq_of_isClosing hl with rfl | rfl | rfl <;> exact .inl (code_of_all (by decide))
    | tripleEqual => exact .inl (code_of_all (by decide))
    | notDoubleEqual => exact .inl (code_of_all (by decide))
    | arrow => exact .inl (code_of_all (by decide))
    | word => exact .inl fun c hc => word_is_code (hl.2.1 c hc)
    | var => exact .inl (code_of_all (by decide))
    | digits => exact .inl fun c hc => word_is_code (hl.2.1 c hc)
    | other d =>
      by_cases hd : d = '/'
      · subst hd
        exact .inr ⟨rfl, rfl⟩
      · refine .inl fun c hc => ?_
        obtain rfl := List.mem_singleton.mp hc
        exact ⟨hl.1.1, hd⟩
  cases h with
  | copied ht => exact hcopied ht
  | opened => exact .inl (code_of_all (by decide))
  | closed => exact .inl (code_of_all (by decide))
  | parameter ht =>
    refine .inl (List.forall_mem_cons.mpr ⟨by decide, ?_⟩)
    rcases hcopied ht with hall | ⟨⟨⟩, -⟩
    exact hall
  | arrow => exact .inl (code_of_all (by decide))
  | blank => exact .inl fun c hc => absurd hc List.not_mem_nil

theorem Woven.isCode {lost : Char → Prop} {next : List Char} {ls more : List Lexeme}
    {ts : List (List Char)} (h : Woven lost next ls ts) (hp : InPlace (ls ++ more))
    (hm : ∀ l ∈ ls, l.isMark = false) : IsCode next ts.flatten := by
  induction h with
  | nil => exact trivial
  | cons hr hs _ ih =>
    obtain ⟨hl, hls⟩ := List.forall_mem_cons.mp hm
    have hrest := ih hp.2 hls
    rcases hr.code hp.1 hl with hall | ⟨rfl, rfl⟩
    · exact hrest.append hall
    · exact ⟨by decide, hs, hrest⟩

theorem Woven.split {lost : Char → Prop} {next : List Char} {ls ms : List Lexeme}
    {ts : List (List Char)} (h : Woven lost next (ls ++ ms) ts) :
    ∃ us vs, ts = us ++ vs ∧ us.length = ls.length ∧ Woven lost (vs.flatten ++ next) ls us ∧
      Woven lost next ms vs := by
  induction ls generalizing ts with
  | nil => exact ⟨[], ts, rfl, rfl, .nil, h⟩
  | cons l ls ih =>
    cases h with
    | @cons _ t _ ts hr hs hw =>
      obtain ⟨us, vs, rfl, hlen, hus, hvs⟩ := ih hw
      refine ⟨t :: us, vs, rfl, congrArg Nat.succ hlen, .cons hr ?_ hus, hvs⟩
      rwa [List.flatten_append, List.append_assoc] at hs

/-! ## Comments and literals -/

theorem Rendered.mark {lost : Char → Prop} {l : Lexeme} {t : List Char} (h : Rendered lost l t)
    (hm : l.isMark = true) : t = l.converted.source := by
  cases h with
  | copied ht =>
    cases ht with
    | lineComment => rfl
    | blockComment => rfl
    | literal quote items => exact writeLiteral_eq_source quote items
    | _ => cases hm
  | _ => cases hm

theorem converted_eq (l : Lexeme) : l.converted = l ∨
    ∃ items, l = .literal '\'' items ∧ l.converted = .literal '"' (items.map Item.converted) := by
  cases l with
  | literal quote items =>
    by_cases h : quote = '\'' ∧ items.length ≠ 1
    · obtain ⟨rfl, hlength⟩ := h
      exact .inr ⟨items, rfl, converted_single hlength⟩
    · exact .inl (converted_other h)
  | _ => exact .inl rfl

theorem isMark_converted (l : Lexeme) : l.converted.isMark = l.isMark := by
  rcases converted_eq l with h | ⟨items, rfl, h⟩ <;> rw [h]
  rfl

theorem isComment_converted (l : Lexeme) : l.converted.isComment = l.isComment := by
  rcases converted_eq l with h | ⟨items, rfl, h⟩ <;> rw [h]
  rfl

theorem isLiteral_converted (l : Lexeme) : l.converted.isLiteral = l.isLiteral := by
  rcases converted_eq l with h | ⟨items, rfl, h⟩ <;> rw [h]
  rfl

/-- A comment and a literal start with a character that is no part of code before them. -/
theorem separates_of_isMark {l : Lexeme} {rest : List Char} (hm : l.isMark = true)
    (hl : l.Stands rest) : ∀ d ∈ l.source.head?, Separates d := by
  intro d hd
  cases l with
  | lineComment =>
    obtain ⟨⟨body, rfl⟩, -⟩ := hl
    cases hd
    exact ⟨by decide, by decide, by decide⟩
  | blockComment =>
    obtain ⟨body, rfl, -⟩ := hl
    cases hd
    exact ⟨by decide, by decide, by decide⟩
  | literal quote items =>
    cases hd
    rcases eq_of_isQuote hl.1 with rfl | rfl | rfl <;> exact ⟨by decide, by decide, by decide⟩
  | _ => cases hm

theorem Woven.separates {lost : Char → Prop} {ls : List Lexeme} {ts : List (List Char)}
    (h : Woven lost [] ls ts) (hp : InPlace ls) (hm : ∀ l ∈ ls.head?, l.isMark = true) :
    ∀ d ∈ ts.flatten.head?, Separates d := by
  cases h with
  | nil => exact fun d hd => by cases hd
  | @cons l t ls ts hr hs _ =>
    have hmark := hm l rfl
    obtain rfl := hr.mark hmark
    have hl := stands_converted hmark hp.1 hs
    obtain ⟨c, text, htext⟩ := List.exists_cons_of_ne_nil hl.source_ne_nil
    intro d hd
    rw [List.flatten_cons, htext] at hd
    refine separates_of_isMark (by rwa [isMark_converted]) hl d ?_
    rw [htext]
    exact hd

/-- The texts for the lexemes of a source are read as lexemes that are aligned with these. -/
theorem Woven.exists_aligned {lost : Char → Prop} {ls : List Lexeme} {ts : List (List Char)}
    (h : Woven lost [] ls ts) (hp : InPlace ls) :
    ∃ ms, Reads ts.flatten ms ∧ Aligned ls ts ms := by
  induction hn : ls.length using Nat.strong_induction_on generalizing ls ts with
  | _ n ih =>
    subst hn
    cases h with
    | nil => exact ⟨[], reads_nil, .nil⟩
    | @cons l t ls ts hr hs hw =>
      cases hm : l.isMark with
      | true =>
        obtain ⟨ms, ⟨htext, hplace⟩, haligned⟩ := ih ls.length (Nat.lt_succ_self _) hw hp.2 rfl
        obtain rfl := hr.mark hm
        rw [List.append_nil, htext] at hs
        refine ⟨l.converted :: ms, ⟨?_, stands_converted hm hp.1 hs, hplace⟩, .mark hm haligned⟩
        rw [List.flatten_cons, htext, sources_cons]
      | false =>
        -- the code up to the next comment or literal
        let code := (l :: ls).takeWhile fun l => !l.isMark
        let rest := (l :: ls).dropWhile fun l => !l.isMark
        have hsplit : l :: ls = code ++ rest := List.takeWhile_append_dropWhile.symm
        have hcode : ∀ l ∈ code, l.isMark = false := fun l hl => by
          simpa using List.mem_takeWhile_imp hl
        have hfirst : ∀ l ∈ rest.head?, l.isMark = true := fun l hl => by
          simpa using head_dropWhile_false l hl
        have hlen : rest.length < (l :: ls).length := by
          have hdrop : rest = ls.dropWhile fun l => !l.isMark :=
            List.dropWhile_cons_of_pos (by simp [hm])
          rw [hdrop]
          exact Nat.lt_succ_of_le (List.dropWhile_suffix _).length_le
        have hall : Woven lost [] (code ++ rest) (t :: ts) := hsplit ▸ .cons hr hs hw
        rw [hsplit] at hp ⊢
        obtain ⟨us, vs, hts, hus, hwcode, hwrest⟩ := hall.split
        obtain ⟨ms, ⟨htext, hplace⟩, haligned⟩ := ih rest.length hlen hwrest hp.of_append rfl
        rw [List.append_nil, htext] at hwcode
        have hsep : ∀ d ∈ (sources ms).head?, Separates d :=
          htext ▸ hwrest.separates hp.of_append hfirst
        obtain ⟨ns, hns, hflat, hplace'⟩ :=
          exists_code_lexemes (hwcode.isCode hp hcode) hsep hplace
        rw [hts]
        refine ⟨ns ++ ms, ⟨?_, hplace'⟩, .code hcode hns hus hflat haligned⟩
        rw [List.flatten_append, sources_append, hflat, htext]

/-- What is kept by the conversion is the same in aligned lexemes. -/
theorem Aligned.filter_eq {p : Lexeme → Bool} {ls ms : List Lexeme} {ts : List (List Char)}
    (h : Aligned ls ts ms) (hmark : ∀ l, p l = true → l.isMark = true)
    (hconv : ∀ l, p (Lexeme.converted l) = p l) :
    ms.filter p = (ls.filter p).map Lexeme.converted := by
  have hnone : ∀ cs : List Lexeme, (∀ l ∈ cs, l.isMark = false) → cs.filter p = [] := by
    intro cs hcs
    refine List.filter_eq_nil_iff.mpr fun l hl hp => ?_
    have hm := hmark l hp
    rw [hcs l hl] at hm
    cases hm
  induction h with
  | nil => rfl
  | @mark l ls ms ts _ _ ih =>
    rw [List.filter_cons, List.filter_cons, hconv, ih]
    cases p l <;> rfl
  | code hcs hns _ _ _ ih =>
    rw [List.filter_append, List.filter_append, hnone _ hcs, hnone _ hns, ih]
    rfl

theorem map_converted_comments (ls : List Lexeme) :
    (ls.filter Lexeme.isComment).map Lexeme.converted = ls.filter Lexeme.isComment := by
  refine (List.map_congr_left fun l hl => ?_).trans (List.map_id _)
  have hcomment := (List.mem_filter.mp hl).2
  cases l with
  | literal => cases hcomment
  | _ => rfl

/-- **Comments and literals are kept** where no line comment stands in front of blanks that an arrow
takes away: reading the result gives the comments of the source, its literals up to the change of
quotes, and between them code that is written for the code between them. -/
theorem marks_kept {source text : String} {ls : List Lexeme} (hr : Reads source.toList ls)
    (h : downlevel source = .ok text) (hc : CommentsClear ls) :
    ∃ ts ms, text.toList = ts.flatten ∧ List.Forall₂ (Rendered fun _ => True) ls ts ∧
      Reads text.toList ms ∧ Aligned ls ts ms ∧
      ms.filter Lexeme.isComment = ls.filter Lexeme.isComment ∧
      ms.filter Lexeme.isLiteral = (ls.filter Lexeme.isLiteral).map Lexeme.converted := by
  have htrim : TrimsOnly (fun _ => True) ls := fun before after k bs hls hm ht =>
    ⟨fun _ _ => trivial, hc before after k bs hls hm ht⟩
  obtain ⟨ts, htext, hwoven⟩ := woven_of_accepted hr h htrim
  obtain ⟨ms, hms, haligned⟩ := hwoven.exists_aligned hr.2
  refine ⟨ts, ms, htext, hwoven.forall₂, htext ▸ hms, haligned, ?_, ?_⟩
  · rw [haligned.filter_eq (fun l hl => by simp [Lexeme.isMark, hl]) isComment_converted,
      map_converted_comments]
  · exact haligned.filter_eq (fun l hl => by simp [Lexeme.isMark, hl]) isLiteral_converted

theorem marks_kept_sample : ∃ ls, Reads "x => 'ab' // c".toList ls ∧ CommentsClear ls ∧
    ∃ ts ms, "|x| \"ab\" // c".toList = ts.flatten ∧
      List.Forall₂ (Rendered fun _ => True) ls ts ∧ Reads "|x| \"ab\" // c".toList ms ∧
      Aligned ls ts ms ∧ ms.filter Lexeme.isComment = ls.filter Lexeme.isComment ∧
      ms.filter Lexeme.isLiteral = (ls.filter Lexeme.isLiteral).map Lexeme.converted := by
  let params : List Lexeme := [.word ['x'], .other ' ']
  let body : List Lexeme := [.other ' ', .literal '\'' [.plain 'a', .plain 'b'], .other ' ',
    .lineComment "// c".toList]
  have hcomment : Reads " // c".toList (body.drop 2) :=
    reads_cons (by rfl) (reads_cons (by rfl) reads_nil)
  have hliteral : Reads "'ab' // c".toList (body.drop 1) :=
    ⟨rfl, ⟨rfl, by simp [AreItems]⟩, hcomment.2⟩
  have hr : Reads "x => 'ab' // c".toList (params ++ .arrow :: body) :=
    reads_cons (by rfl) (reads_cons (by rfl) (reads_cons (by rfl) (reads_cons (by rfl) hliteral)))
  have h : downlevel "x => 'ab' // c" = .ok "|x| \"ab\" // c" :=
    downlevel_eq_ok_iff.mpr ⟨_, _, hr, rfl, rfl, rfl⟩
  have hc : CommentsClear (params ++ .arrow :: body) := by
    intro before after k bs heq _ htrim l hl
    rw [List.append_cons_inj_of_notMem (by decide) (by decide)] at heq
    obtain ⟨rfl, -, -⟩ := heq
    have hall : ∀ l ∈ params, l.isLineComment = false := by decide
    exact hall l (htrim.starts.subset (List.mem_append_left bs (List.mem_of_getLast? hl)))
  exact ⟨_, hr, hc, marks_kept hr h hc⟩

/-- **A line comment at the end of a parameter list swallows the bar that closes the list**, and the
code behind it. -/
theorem comment_swallows :
    downlevel "(a // c\n) => a" = .ok "|a // c| a" ∧
      ∃ ls ms, Reads "(a // c\n) => a".toList ls ∧ Reads "|a // c| a".toList ms ∧
        ms.filter Lexeme.isComment ≠ ls.filter Lexeme.isComment := by
  let ls : List Lexeme := [.opening '(', .word ['a'], .other ' ', .lineComment "// c".toList,
    .other '\n', .closing ')', .other ' ', .arrow, .other ' ', .word ['a']]
  let ms : List Lexeme := [.other '|', .word ['a'], .other ' ', .lineComment "// c| a".toList]
  have hr : Reads "(a // c\n) => a".toList ls := by
    repeat' first | exact reads_nil | refine reads_cons (by rfl) ?_
  have hm : Reads "|a // c| a".toList ms := by
    repeat' first | exact reads_nil | refine reads_cons (by rfl) ?_
  exact ⟨downlevel_eq_ok_iff.mpr ⟨ls, _, hr, rfl, rfl, rfl⟩, ls, ms, hr, hm, by decide⟩

end PackHost.Source
