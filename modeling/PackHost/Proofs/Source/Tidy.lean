import PackHost.Proofs.Source.Progress

/-!
# The written text in front of an arrow

An arrow looks back at what was written: over blanks, for a group of parentheses or a word.
`closureParams?_group`, `closureOfWord?_eq_some` and `closureOfWord?_eq_none` say what it finds in a
text. `Tidy` is what a pass keeps true of its text so that it finds what the source has there.
-/

namespace PackHost.Source

/-! ## Trimming -/

section Lists

variable {α : Type} {p : α → Bool}

theorem dropWhile_eq_self {ls : List α} (h : ∀ x ∈ ls.head?, p x = false) :
    ls.dropWhile p = ls := by
  cases ls with
  | nil => rfl
  | cons x ls => exact List.dropWhile_cons_of_neg (Bool.eq_false_iff.mp (h x rfl))

theorem takeWhile_eq_nil {ls : List α} (h : ∀ x ∈ ls.head?, p x = false) :
    ls.takeWhile p = [] := by
  cases ls with
  | nil => rfl
  | cons x ls => exact List.takeWhile_cons_of_neg (Bool.eq_false_iff.mp (h x rfl))

/-- What is not of the class at either end, between two parts that are. -/
theorem exists_core (p : α → Bool) (ls : List α) :
    ∃ a core b, ls = a ++ core ++ b ∧ (∀ x ∈ a, p x = true) ∧ (∀ x ∈ b, p x = true) ∧
      (∀ x ∈ core.head?, p x = false) ∧ ∀ x ∈ core.getLast?, p x = false := by
  let rest := ls.dropWhile p
  let core := (rest.reverse.dropWhile p).reverse
  have hrest : rest = core ++ (rest.reverse.takeWhile p).reverse := by
    rw [← List.reverse_append, List.takeWhile_append_dropWhile, List.reverse_reverse]
  refine ⟨ls.takeWhile p, core, (rest.reverse.takeWhile p).reverse, ?_, ?_, ?_, ?_, ?_⟩
  · rw [List.append_assoc, ← hrest, List.takeWhile_append_dropWhile]
  · exact fun x hx => List.mem_takeWhile_imp hx
  · exact fun x hx => List.mem_takeWhile_imp (List.mem_reverse.mp hx)
  · intro x hx
    have hhead : x ∈ rest.head? := by
      rw [hrest, List.head?_append, Option.mem_def.mp hx]
      rfl
    exact head_dropWhile_false x hhead
  · intro x hx
    rw [List.getLast?_reverse] at hx
    exact head_dropWhile_false x hx

theorem suffix_dropWhile {x : α} {base ls : List α} (hx : p x = false)
    (h : x :: base <:+ ls) : x :: base <:+ ls.dropWhile p := by
  obtain ⟨top, rfl⟩ := h
  induction top with
  | nil =>
    have hkeep : (x :: base).dropWhile p = x :: base := List.dropWhile_cons_of_neg (by simp [hx])
    exact ⟨[], hkeep.symm⟩
  | cons y top ih =>
    rw [List.cons_append, List.dropWhile_cons]
    split
    · exact ih
    · exact ⟨y :: top, rfl⟩

end Lists

theorem trim_eq {a core b : List Char} (ha : ∀ c ∈ a, Text.isBlank c = true)
    (hb : ∀ c ∈ b, Text.isBlank c = true) (head : ∀ c ∈ core.head?, Text.isBlank c = false)
    (last : ∀ c ∈ core.getLast?, Text.isBlank c = false) : trim (a ++ core ++ b) = core := by
  unfold trim
  rw [List.append_assoc, List.dropWhile_append_of_pos ha]
  cases core with
  | nil =>
    rw [List.nil_append, ← List.append_nil b, List.dropWhile_append_of_pos hb]
    rfl
  | cons c core =>
    have hkeep : (c :: core ++ b).dropWhile Text.isBlank = c :: core ++ b :=
      dropWhile_eq_self head
    have hend : ((c :: core).reverse).dropWhile Text.isBlank = (c :: core).reverse :=
      dropWhile_eq_self fun d hd => last d (by rwa [List.head?_reverse] at hd)
    have hb' : ∀ d ∈ b.reverse, Text.isBlank d = true := fun d hd => hb d (List.mem_reverse.mp hd)
    rw [hkeep, List.reverse_append, List.dropWhile_append_of_pos hb', hend, List.reverse_reverse]

theorem trim_reverse (text : List Char) : trim text.reverse = (trim text).reverse := by
  obtain ⟨a, core, b, rfl, ha, hb, head, last⟩ := exists_core Text.isBlank text
  have hright : trim (b.reverse ++ core.reverse ++ a.reverse) = core.reverse := by
    refine trim_eq (fun c hc => hb c (List.mem_reverse.mp hc))
      (fun c hc => ha c (List.mem_reverse.mp hc)) (fun c hc => ?_) fun c hc => ?_
    · exact last c (by rwa [List.head?_reverse] at hc)
    · exact head c (by rwa [List.getLast?_reverse] at hc)
  rw [trim_eq ha hb head last, List.append_assoc, List.reverse_append, List.reverse_append, hright]

/-! ## Parameters in the written text -/

theorem suffix_barred (params before : List Char) : before <:+ barred params before :=
  ⟨'|' :: params ++ ['|'], by simp [barred]⟩

theorem closureParams?_blanks {bs out : List Char} {group : Option Group}
    (h : ∀ c ∈ bs, Text.isBlank c = true) :
    closureParams? (bs ++ out) group = closureParams? out group := by
  unfold closureParams?
  rw [List.dropWhile_append_of_pos h]

/-- A group that does not end the visible text is no parameter list. -/
theorem closureParams?_of_visible {out : List Char} {group : Option Group}
    (visible : ∀ c ∈ out.head?, Text.isBlank c = false)
    (hgroup : ∀ g ∈ group, g.last < out.length) :
    closureParams? out group = closureOfWord? out := by
  have hnone : group.bind (closureOfGroup? out) = none := by
    cases group with
    | none => rfl
    | some g =>
      have hne : ¬ (out.length = g.last ∧ g.first < g.last) := fun h =>
        absurd (hgroup g rfl) (by omega)
      exact if_neg hne
  unfold closureParams?
  dsimp only
  rw [dropWhile_eq_self visible, hnone]

theorem closureOfWord?_eq_none {out : List Char}
    (h : ∀ c ∈ (out.takeWhile isWordPart).getLast?, isWordStart c = false) :
    closureOfWord? out = none := by
  unfold closureOfWord?
  dsimp only
  split
  · rfl
  · next c hc => simp [h c hc]

theorem closureOfWord?_eq_some {word before : List Char} {c : Char}
    (hword : ∀ d ∈ c :: word, isWordPart d = true) (hstart : isWordStart c = true)
    (hstop : ∀ d ∈ before.head?, isWordPart d = false) :
    closureOfWord? ((c :: word).reverse ++ before) =
      if before.head? = some '.' then none else some (barred (c :: word).reverse before) := by
  obtain ⟨htake, hdrop⟩ := takeWhile_append_stop
    (fun d hd => hword d (List.mem_reverse.mp hd)) hstop
  have hfirst : (c :: word).reverse.getLast? = some c := by rw [List.getLast?_reverse]; rfl
  unfold closureOfWord?
  dsimp only
  rw [htake, hdrop, hfirst]
  simp [hstart]

theorem closureParams?_group (inner before : List Char) :
    closureParams? (')' :: (inner ++ '(' :: before))
        (some ⟨before.length, (')' :: (inner ++ '(' :: before)).length⟩) =
      some (barred (trim inner) before) := by
  have hvisible : Text.isBlank ')' = false := by decide
  have hlength : (')' :: (inner ++ '(' :: before)).length - before.length =
      (')' :: (inner ++ ['('])).length := by
    simp only [List.length_cons, List.length_append, List.length_nil]
    omega
  have hsplit : ')' :: (inner ++ '(' :: before) = ')' :: (inner ++ ['(']) ++ before := by simp
  have hlt : before.length < (')' :: (inner ++ '(' :: before)).length := by
    simp only [List.length_cons, List.length_append]
    omega
  have hlast : (')' :: (inner ++ ['('])).getLast? = some '(' := by
    rw [← List.cons_append, List.getLast?_concat]
  unfold closureParams?
  dsimp only
  rw [List.dropWhile_cons_of_neg (by simp [hvisible]), Option.bind_some]
  unfold closureOfGroup?
  dsimp only
  rw [if_pos ⟨rfl, hlt⟩, hlength, hsplit, List.take_left, List.drop_left, if_pos hlast]
  simp

/-! ## The last character of a lexeme -/

def Lexeme.isBlank : Lexeme → Bool
  | .other c => Text.isBlank c
  | _ => false

def Lexeme.isLineComment : Lexeme → Bool
  | .lineComment _ => true
  | _ => false

def endMarks : List Char := ['/', '"', '\'', '`', '(', '[', '{', ')', ']', '}', '=', '>']

namespace Lexeme.Stands

variable {l : Lexeme} {rest : List Char}

theorem last_cases (h : l.Stands rest) (hc : l.isLineComment = false) :
    (∃ c ∈ endMarks, l.source.getLast? = some c) ∨
      ((∃ text, l = .word text) ∨ ∃ text, l = .digits text) ∧ (∀ c ∈ l.source, isWordPart c) ∨
      ∃ c, l = .other c := by
  cases l with
  | lineComment => cases hc
  | blockComment text =>
    obtain ⟨body, rfl, -⟩ := h
    have hsplit : '/' :: '*' :: (body ++ ['*', '/']) =
        ('/' :: '*' :: (body ++ ['*'])) ++ ['/'] := by simp
    refine .inl ⟨'/', by decide, ?_⟩
    rw [Lexeme.source, hsplit, List.getLast?_concat]
  | literal quote items =>
    refine .inl ⟨quote, ?_, List.getLast?_concat⟩
    rcases eq_of_isQuote h.1 with rfl | rfl | rfl <;> decide
  | opening b =>
    refine .inl ⟨b, ?_, rfl⟩
    rcases eq_of_isOpening h with rfl | rfl | rfl <;> decide
  | closing b =>
    refine .inl ⟨b, ?_, rfl⟩
    rcases eq_of_isClosing h with rfl | rfl | rfl <;> decide
  | tripleEqual => exact .inl ⟨'=', by decide, rfl⟩
  | notDoubleEqual => exact .inl ⟨'=', by decide, rfl⟩
  | arrow => exact .inl ⟨'>', by decide, rfl⟩
  | word text => exact .inr (.inl ⟨.inl ⟨text, rfl⟩, h.2.1⟩)
  | digits text => exact .inr (.inl ⟨.inr ⟨text, rfl⟩, h.2.1⟩)
  | other c => exact .inr (.inr ⟨c, rfl⟩)

theorem last_visible (h : l.Stands rest) (hc : l.isLineComment = false)
    (hb : l.isBlank = false) : ∀ c ∈ l.source.getLast?, Text.isBlank c = false := by
  intro c hlast
  rcases h.last_cases hc with ⟨d, hd, hmark⟩ | ⟨-, hall⟩ | ⟨d, rfl⟩
  · rw [hmark] at hlast
    cases hlast
    have hmarks : (endMarks.any Text.isBlank) = false := by decide
    simpa using List.any_eq_false.mp hmarks _ hd
  · exact not_isBlank_of_isWordPart (hall c (List.mem_of_getLast? hlast))
  · cases hlast
    exact hb

end Lexeme.Stands

/-! ## The written text of a pass -/

/-- What arrows rely on: the group that was closed last lies in the written text, and a run of word
characters at the end of it that starts like a word is over. -/
structure Tidy (s : Scan) (rest : List Char) : Prop where
  past : ∀ g ∈ s.group, g.last ≤ s.out.length
  run : ∀ c ∈ (s.out.takeWhile isWordPart).getLast?, isWordStart c = true →
    ∀ d ∈ rest.head?, isWordPart d = false

namespace Tidy

variable {s s' : Scan} {p : Position} {rest : List Char} {l : Lexeme}

theorem start (rest : List Char) : Tidy Scan.start rest where
  past := fun g hg => by cases hg
  run := fun c hc => by cases hc

/-- Word characters that do not start like a word, or stand behind others, start no word. -/
theorem run_append {c c' : Char} {cs tail : List Char} (ht : Tidy s (c' :: tail))
    (hc' : isWordPart c' = true) (hword : ∀ d ∈ c :: cs, isWordPart d = true)
    (hstart : isWordStart c = false ∨ s.out.head?.any isWordPart = true) :
    ∀ d ∈ (((c :: cs).reverse ++ s.out).takeWhile isWordPart).getLast?, isWordStart d = false := by
  intro d hd
  have hall : ∀ e ∈ (c :: cs).reverse, isWordPart e = true :=
    fun e he => hword e (List.mem_reverse.mp he)
  rw [List.takeWhile_append_of_pos hall, List.getLast?_append] at hd
  cases hrun : (s.out.takeWhile isWordPart).getLast? with
  | none =>
    rw [hrun, Option.none_or, List.getLast?_reverse] at hd
    cases hd
    refine hstart.resolve_right fun hhead => ?_
    -- the first of the other characters would be in the run
    cases hout : s.out with
    | nil => simp [hout] at hhead
    | cons e out =>
      have he : isWordPart e = true := by simpa [hout] using hhead
      rw [hout, List.takeWhile_cons_of_pos he, List.getLast?_eq_none_iff] at hrun
      cases hrun
  | some e =>
    rw [hrun, Option.some_or] at hd
    cases hd
    by_contra hd
    have hstop := ht.run d hrun (by simpa using hd) c' rfl
    rw [hc'] at hstop
    cases hstop

/-- Behind other lexemes than words, and line comments, no word ends. -/
theorem run_step (ht : Tidy s (l.source ++ rest)) (hl : l.Stands rest)
    (hw : ∀ text, l ≠ .word text) (hc : l.isLineComment = false)
    (h : s.step p rest l = .ok s') :
    ∀ c ∈ (s'.out.takeWhile isWordPart).getLast?, isWordStart c = false := by
  have hhead := Scan.head_step (Q := isWordPart) (by decide) (by decide) (by decide)
    hl.source_ne_nil h
  have hother : ∀ c, l.source.getLast? = some c → isWordPart c = false →
      ∀ d ∈ (s'.out.takeWhile isWordPart).getLast?, isWordStart d = false := by
    intro c hlast hclass d hd
    rw [hlast, Option.map_some, hclass] at hhead
    have hnil : s'.out.takeWhile isWordPart = [] := takeWhile_eq_nil fun e he => by
      rw [Option.mem_def.mp he, Option.map_some] at hhead
      exact Option.some.inj hhead
    rw [hnil] at hd
    cases hd
  rcases hl.last_cases hc with ⟨c, hmark, hlast⟩ | ⟨⟨text, rfl⟩ | ⟨text, rfl⟩, -⟩ | ⟨c, rfl⟩
  · have hmarks : endMarks.any isWordPart = false := by decide
    exact hother c hlast (by simpa using List.any_eq_false.mp hmarks c hmark)
  · exact absurd rfl (hw text)
  · obtain ⟨⟨c, cs, rfl, -, hstart⟩, hword, -⟩ := hl
    cases h
    exact ht.run_append (hword c List.mem_cons_self) hword (.inl hstart)
  · obtain ⟨⟨-, -, -, hstart, -⟩, -⟩ := hl
    cases hpart : isWordPart c with
    | false => exact hother c rfl hpart
    | true =>
      cases h
      have hword : ∀ d ∈ [c], isWordPart d = true := by simpa using hpart
      exact ht.run_append hpart hword (.inl hstart)

/-- Only a closing parenthesis makes a group that ends the written text. -/
theorem past_step (ht : Tidy s (l.source ++ rest)) (hl : l.Stands rest) (hg : l ≠ .closing ')')
    (h : s.step p rest l = .ok s') : ∀ g ∈ s'.group, g.last < s'.out.length := by
  intro g hmem
  by_cases hb : l.isBracket = false
  · by_cases ha : l = .arrow
    · subst ha
      cases h
      obtain ⟨-, -, hnone | ⟨hsame, hout⟩⟩ := s.arrow_rest
      · rw [hnone] at hmem
        cases hmem
      · rw [hsame] at hmem
        rw [hout]
        exact Nat.lt_of_le_of_lt (ht.past g hmem) (by simp only [List.length_cons]; omega)
    · obtain ⟨t, hcopied, rfl⟩ := Scan.step_leaf hb ha h
      have hpos := List.length_pos_iff.mpr (hcopied.ne_nil hl.source_ne_nil)
      have hpast := ht.past g hmem
      simp only [Scan.copy, List.length_append, List.length_reverse]
      omega
  · cases l with
    | opening b =>
      cases h
      exact Nat.lt_succ_of_le (ht.past g hmem)
    | closing c =>
      obtain ⟨b, stack, -, -, rfl⟩ := Scan.step_closing.mp h
      have hc : c ≠ ')' := fun heq => hg (by rw [heq])
      dsimp only at hmem
      rw [if_neg hc] at hmem
      exact Nat.lt_succ_of_le (ht.past g hmem)
    | _ => exact absurd rfl hb

theorem step (ht : Tidy s (l.source ++ rest)) (hl : l.Stands rest)
    (h : s.step p rest l = .ok s') : Tidy s' rest where
  past := by
    intro g hmem
    by_cases hg : l = .closing ')'
    · subst hg
      obtain ⟨b, stack, -, -, rfl⟩ := Scan.step_closing.mp h
      cases hmem
      exact Nat.le_refl _
    · exact Nat.le_of_lt (ht.past_step hl hg h g hmem)
  run := by
    intro c hc hstart d hd
    by_cases hw : ∃ text, l = .word text
    · obtain ⟨text, rfl⟩ := hw
      exact hl.2.2 d hd
    · cases hline : l.isLineComment with
      | true =>
        cases l with
        | lineComment text =>
          obtain rfl := hl.2.2 d hd
          decide
        | _ => cases hline
      | false =>
        have := ht.run_step hl (fun text heq => hw ⟨text, heq⟩) hline h c hc
        rw [hstart] at this
        cases this

end Tidy

theorem Passed.tidy {before after : List Lexeme} {s : Scan} (hp : InPlace (before ++ after))
    (h : Passed before after s) : Tidy s (sources after) :=
  h.invariant (P := fun _ after s => Tidy s (sources after)) (fun _ => Tidy.start _)
    (fun hl ht hstep => ht.step hl hstep) hp

end PackHost.Source
