import PackHost.Proofs.Source.Tidy

/-!
# Texts in front of other texts

* `InFront tail ls`: the lexemes are read as they are when `tail` follows them. A text that ends in
  code is read alike in front of most characters (`InPlace.inFront`);
* the pass looks at nothing of what follows but its first visible character (`Scan.feed_tail`).
-/

namespace PackHost.Source

/-! ## Readings -/

/-- Every lexeme may stand in front of those after it and of the given text. -/
def InFront (tail : List Char) : List Lexeme → Prop
  | [] => True
  | l :: ls => l.Stands (sources ls ++ tail) ∧ InFront tail ls

theorem inFront_nil {ls : List Lexeme} : InFront [] ls ↔ InPlace ls := by
  induction ls with
  | nil => exact Iff.rfl
  | cons l ls ih => rw [InFront, InPlace, List.append_nil, ih]

theorem inFront_append {tail : List Char} {ls ms : List Lexeme} :
    InFront tail (ls ++ ms) ↔ InFront (sources ms ++ tail) ls ∧ InFront tail ms := by
  induction ls with
  | nil => simp [InFront]
  | cons l ls ih =>
    rw [List.cons_append, InFront, InFront, ih, sources_append, List.append_assoc, and_assoc]

theorem InFront.source_ne_nil {tail : List Char} {ls : List Lexeme} (h : InFront tail ls) :
    ∀ l ∈ ls, l.source ≠ [] := by
  induction ls with
  | nil => exact fun l hl => absurd hl List.not_mem_nil
  | cons l ls ih => exact List.forall_mem_cons.mpr ⟨h.1.source_ne_nil, ih h.2⟩

/-- A character that ends every lexeme of code in front of it, but words and runs of digits. -/
def Parts (c : Char) : Prop := c ≠ '/' ∧ c ≠ '*' ∧ c ≠ '>' ∧ c ≠ '='

theorem getLast?_any_of_all {text : List Char} (hne : text ≠ []) (h : ∀ c ∈ text, isWordPart c) :
    text.getLast?.any isWordPart = true := by
  rw [List.getLast?_eq_some_getLast hne]
  exact h _ (List.getLast_mem hne)

/-- Two equals signs behind the same text, which may hold one or both of them. -/
theorem equals_append {text rest rest' : List Char}
    (one : rest'.head? = some '=' → rest.head? = some '=')
    (two : ['=', '='] <+: rest' → ['=', '='] <+: rest) (h : ['=', '='] <+: text ++ rest') :
    ['=', '='] <+: text ++ rest := by
  match text with
  | [] => exact two h
  | [c] =>
    obtain ⟨more, hmore⟩ := h
    obtain ⟨rfl, hrest⟩ := List.cons_eq_cons.mp hmore
    obtain ⟨more', hmore'⟩ := List.head?_eq_some_iff.mp (one (congrArg List.head? hrest.symm))
    exact ⟨more', by rw [hmore']; rfl⟩
  | c :: d :: text =>
    obtain ⟨more, hmore⟩ := h
    obtain ⟨rfl, hrest⟩ := List.cons_eq_cons.mp hmore
    obtain ⟨rfl, -⟩ := List.cons_eq_cons.mp hrest
    exact ⟨text ++ rest, rfl⟩

/-- What may follow a lexeme may be followed by more. -/
theorem Lexeme.Stands.append {l : Lexeme} {rest tail : List Char} (h : l.Stands rest)
    (htail : ∀ c ∈ tail.head?, Parts c) (hline : rest = [] → l.isLineComment = false)
    (hword : rest = [] → l.source.getLast?.any isWordPart = true →
      ∀ c ∈ tail.head?, isWordPart c = false) : l.Stands (rest ++ tail) := by
  have hhead : tail.head? ≠ some '=' := fun hc => (htail '=' hc).2.2.2 rfl
  have hnot : ¬ ['=', '='] <+: tail := by
    rintro ⟨text, rfl⟩
    exact hhead rfl
  cases rest with
  | cons c rest =>
    -- the first character is the same one, and a second one is no equals sign if it is new
    have hequals : ¬ ['=', '='] <+: c :: rest → ¬ ['=', '='] <+: c :: rest ++ tail := by
      refine mt fun h => ?_
      have hold : ['=', '='] <+: c :: rest ++ [] :=
        equals_append (fun hc => absurd hc hhead) (fun hpre => absurd hpre hnot) h
      rwa [List.append_nil] at hold
    cases l with
    | other d =>
      exact ⟨h.1, h.2.1, fun hd => ⟨(h.2.2.1 hd).1, hequals (h.2.2.1 hd).2⟩,
        fun hd => hequals (h.2.2.2 hd)⟩
    | _ => exact h
  | nil =>
    cases l with
    | lineComment => cases hline rfl
    | word text =>
      exact ⟨h.1, h.2.1, hword rfl (getLast?_any_of_all h.source_ne_nil h.2.1)⟩
    | digits text =>
      exact ⟨h.1, h.2.1, hword rfl (getLast?_any_of_all h.source_ne_nil h.2.1)⟩
    | other d =>
      refine ⟨h.1, fun _ => ⟨fun hc => ?_, fun hc => ?_⟩, fun _ => ⟨fun hc => ?_, hnot⟩,
        fun _ => hnot⟩
      · exact (htail '/' hc).1 rfl
      · exact (htail '*' hc).2.1 rfl
      · exact (htail '>' hc).2.2.1 rfl
    | _ => exact h

/-- A text that ends in code is read alike in front of a character that parts it from what
follows. -/
theorem InPlace.inFront {ls : List Lexeme} {tail : List Char} (h : InPlace ls)
    (hline : ∀ l ∈ ls.getLast?, l.isLineComment = false) (htail : ∀ c ∈ tail.head?, Parts c)
    (hword : EndsInWord ls → ∀ c ∈ tail.head?, isWordPart c = false) : InFront tail ls := by
  induction ls with
  | nil => trivial
  | cons l ls ih =>
    obtain ⟨hl, hls⟩ := h
    have hnil : sources ls = [] → ls = [] := by
      intro hsources
      cases ls with
      | nil => rfl
      | cons m ls => exact absurd (List.append_eq_nil_iff.mp hsources).1 hls.1.source_ne_nil
    refine ⟨hl.append htail (fun hsources => ?_) (fun hsources hlast => ?_), ih hls ?_ ?_⟩
    · obtain rfl := hnil hsources
      exact hline l rfl
    · obtain rfl := hnil hsources
      exact hword (by simpa [EndsInWord] using hlast)
    · intro m hm
      refine hline m ?_
      rw [List.getLast?_cons, Option.mem_def.mp hm]
      rfl
    · intro hends
      refine hword ?_
      unfold EndsInWord at hends ⊢
      rw [sources_cons, List.getLast?_append]
      cases hlast : (sources ls).getLast? with
      | none => rw [hlast] at hends; cases hends
      | some c => rwa [hlast] at hends

/-! ## What the pass sees of a following text -/

/-- A character is the first visible one of two texts together only if it is of the second alone, or
already of the first. -/
theorem firstVisible?_tail {c : Char} {tail tail' : List Char} (text : List Char)
    (h : firstVisible? tail' = some c → firstVisible? tail = some c) :
    firstVisible? (text ++ tail') = some c → firstVisible? (text ++ tail) = some c := by
  unfold firstVisible? at h ⊢
  rw [List.find?_append, List.find?_append]
  cases text.find? fun c => !Text.isBlank c with
  | some d => exact id
  | none => simpa using h

namespace Scan

variable {s s' : Scan} {p : Position}

/-- A step is the same in front of another text, if the first visible character is a colon in front
of both or of none and no new parenthesis. -/
theorem step_tail {rest rest' : List Char} {l : Lexeme}
    (colon : firstVisible? rest' = some ':' ↔ firstVisible? rest = some ':')
    (paren : firstVisible? rest' = some '(' → firstVisible? rest = some '(')
    (h : s.step p rest l = .ok s') : s.step p rest' l = .ok s' := by
  cases l with
  | word text =>
    have hallowed := exists_step_word.mp ⟨s', h⟩
    obtain ⟨m, hm⟩ : ∃ m, s.step p rest' (.word text) = .ok m :=
      exists_step_word.mpr (hallowed.imp_right (And.imp_right fun hnot hrequire =>
        hnot ⟨hrequire.1, paren hrequire.2⟩))
    rw [hm, step_word_eq h, step_word_eq hm]
    simp only [ne_eq, colon]
  | _ => exact h

theorem feed_tail {tail tail' : List Char} {ls : List Lexeme}
    (colon : firstVisible? tail' = some ':' ↔ firstVisible? tail = some ':')
    (paren : firstVisible? tail' = some '(' → firstVisible? tail = some '(')
    (h : s.feed p tail ls = .ok s') : s.feed p tail' ls = .ok s' := by
  induction ls generalizing s p with
  | nil => exact h
  | cons l ls ih =>
    obtain ⟨m, hstep, hfeed⟩ := feed_cons_eq_ok.mp h
    refine feed_cons_eq_ok.mpr ⟨m, step_tail ?_ (firstVisible?_tail _ paren) hstep, ih hfeed⟩
    exact ⟨firstVisible?_tail _ colon.mp, firstVisible?_tail _ colon.mpr⟩

end Scan

end PackHost.Source
