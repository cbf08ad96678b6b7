import PackHost.Proofs.Source.Arrow
import PackHost.Proofs.Source.Within

/-!
# Arrow functions one inside another

`arrow_in_place`: behind every text that ends in code, an arrow behind parentheses puts bars around
what is written for the inside of the parentheses alone, and an arrow behind a word puts bars around
the word. What is left is again a text that ends in code, so the next arrow of a chain is rewritten
alike.
-/

namespace PackHost.Source

def Scanned (text : String) (s : Scan) : Prop :=
  Scan.start.run Position.start text.toList = .ok s

def EndsInCode (text : String) : Prop :=
  ∃ ls, Reads text.toList ls ∧ ∀ l ∈ ls.getLast?, l.isLineComment = false

/-- Behind the text the pass is in the given state: in code, with no `switch` that waits for its
body, and not directly inside of such a body. -/
structure OpenCode (text : String) (s : Scan) : Prop where
  scanned : Scanned text s
  code : EndsInCode text
  settled : s.switchPending = false
  outside : s.inSwitch = false

/-- The text is accepted on its own, with the given result, and ends in code with no `switch` that
waits for its body. -/
structure Standalone (text result : String) : Prop where
  accepted : downlevel text = .ok result
  code : EndsInCode text
  settled : ∀ s, Scanned text s → s.switchPending = false

def IsBlankText (text : String) : Prop := ∀ c ∈ text.toList, Text.isBlank c = true

instance (text : String) : Decidable (IsBlankText text) :=
  decidable_of_iff (text.toList.all Text.isBlank = true) List.all_eq_true

def IsWord (text : String) : Prop :=
  (∃ c cs, text.toList = c :: cs ∧ isWordStart c = true) ∧ ∀ c ∈ text.toList, isWordPart c = true

theorem scanned_iff {text : String} {s : Scan} : Scanned text s ↔
    ∃ ls, Reads text.toList ls ∧ Scan.start.feed Position.start [] ls = .ok s := by
  constructor
  · intro h
    obtain ⟨ls, hls⟩ := Scan.reads_of_run h
    exact ⟨ls, hls, Scan.run_eq_feed hls ▸ h⟩
  · rintro ⟨ls, hls, h⟩
    exact (Scan.run_eq_feed hls).trans h

theorem Scanned.unique {text : String} {s s' : Scan} (h : Scanned text s) (h' : Scanned text s') :
    s = s' :=
  Except.ok.inj (h.symm.trans h')

/-! ## Blanks -/

theorem stands_blank {c : Char} (h : Text.isBlank c = true) (rest : List Char) :
    (Lexeme.other c).Stands rest := by
  have hne : ∀ d, Text.isBlank d = false → c ≠ d := by
    rintro d hd rfl
    rw [h] at hd
    cases hd
  have hword : isWordPart c = false := not_isWordPart_of_isBlank h
  have hnot : ∀ p : Char → Bool, (∀ d, p d → Text.isBlank d = false) → p c = false := by
    intro p hp
    rw [Bool.eq_false_iff]
    exact fun hc => by rw [hp c hc] at h; cases h
  refine ⟨⟨hnot _ ?_, hnot _ ?_, hnot _ ?_, hnot _ ?_, hnot _ ?_⟩, fun hc => ?_, fun hc => ?_,
    fun hc => ?_⟩
  · intro d hd
    rcases eq_of_isQuote hd with rfl | rfl | rfl <;> decide
  · intro d hd
    rcases eq_of_isOpening hd with rfl | rfl | rfl <;> decide
  · intro d hd
    rcases eq_of_isClosing hd with rfl | rfl | rfl <;> decide
  · exact fun d hd => not_isBlank_of_isWordPart (isWordPart_of_isWordStart hd)
  · exact fun d hd => not_isBlank_of_isWordPart (isWordPart_of_isDigit hd)
  · exact absurd hc (hne '/' (by decide))
  · exact absurd hc (hne '=' (by decide))
  · exact absurd hc (hne '!' (by decide))

theorem exists_blank_lexemes {text : List Char} (h : ∀ c ∈ text, Text.isBlank c = true) :
    ∃ bs, text = sources bs ∧ Blanks bs ∧ ∀ tail, InFront tail bs := by
  induction text with
  | nil => exact ⟨[], rfl, fun l hl => absurd hl List.not_mem_nil, fun _ => trivial⟩
  | cons c text ih =>
    obtain ⟨hc, htext⟩ := List.forall_mem_cons.mp h
    obtain ⟨bs, rfl, hbs, hfront⟩ := ih htext
    exact ⟨.other c :: bs, rfl, List.forall_mem_cons.mpr ⟨hc, hbs⟩,
      fun tail => ⟨stands_blank hc _, hfront tail⟩⟩

theorem firstVisible?_blanks {bs : List Lexeme} (h : Blanks bs) (tail : List Char) :
    firstVisible? (sources bs ++ tail) = firstVisible? tail := by
  unfold firstVisible?
  rw [List.find?_append, List.find?_eq_none.mpr fun c hc => by simp [h.sources c hc], Option.none_or]

theorem firstVisible?_of_head {text : List Char} {c : Char} (h : text.head? = some c)
    (hc : Text.isBlank c = false) : firstVisible? text = some c := by
  obtain ⟨text, rfl⟩ := List.head?_eq_some_iff.mp h
  exact List.find?_cons_of_pos (by simp [hc])

theorem not_isWordPart_blanks_arrow {bs : List Lexeme} (h : Blanks bs) :
    ∀ c ∈ (sources (bs ++ [.arrow])).head?, isWordPart c = false := by
  intro c hc
  rw [sources_append, List.head?_append] at hc
  cases hhead : (sources bs).head? with
  | none =>
    rw [hhead] at hc
    cases hc
    decide
  | some d =>
    rw [hhead] at hc
    cases hc
    exact not_isWordPart_of_isBlank (h.sources _ (List.mem_of_head? hhead))

/-! ## The pass over parameters and their arrow -/

section Feed

variable {s m : Scan} {p : Position} {bs : List Lexeme}

/-- The arrow behind blanks, where there are parameters in front of these. -/
theorem feed_closure {params before : List Char} (hb : Blanks bs) (houtside : s.inSwitch = false)
    (hparams : closureParams? s.out s.group = some (barred params before)) :
    s.feed p [] (bs ++ [.arrow]) = .ok { s with out := barred params before, group := none } := by
  refine Scan.feed_append_eq_ok.mpr ⟨_, Scan.feed_blanks hb, ?_⟩
  rw [Scan.feed_singleton, Scan.step_arrow, Scan.arrow_closure]
  · rfl
  · exact houtside
  · rw [closureParams?_write hb.sources, hparams]

theorem feed_group {lp : List Lexeme} (hpast : ∀ g ∈ s.group, g.last ≤ s.out.length)
    (hsettled : s.switchPending = false) (houtside : s.inSwitch = false)
    (hm : Scan.start.feed Position.start [] lp = .ok m) (hstack : m.stack = []) (hb : Blanks bs) :
    s.feed p [] (.opening '(' :: (lp ++ .closing ')' :: (bs ++ [.arrow]))) =
      .ok ⟨barred (trim m.out) s.out, s.stack, none, m.switchPending⟩ := by
  -- the parenthesis is the character at which the pass over the inside stops looking back
  let base : List Char := '(' :: s.out
  let opened : Scan := s.openBracket p '('
  have hwithin : Within base opened.stack Scan.start opened :=
    ⟨rfl, ⟨[], rfl, .nil⟩, by simp [opened, Scan.openBracket, Scan.start, hsettled]⟩
  have hgroup : GroupWithin base.length Scan.start.group opened.group :=
    ⟨by rintro _ ⟨⟩, fun _ g hg => Nat.lt_succ_of_le (hpast g hg)⟩
  have hvisible : firstVisible? (sources (.closing ')' :: (bs ++ [.arrow])) ++ []) = some ')' := rfl
  obtain ⟨inner, hinner, hend⟩ := hwithin.feed (q := p.advance ['(']) (stops_parenthesis s.out) rfl
    hgroup (by rw [hvisible]; decide) (by rw [hvisible]; decide) hm
  obtain ⟨own, hown, hlifted⟩ := hend.stack
  rw [hstack] at hlifted
  cases hlifted
  refine Scan.feed_cons_eq_ok.mpr ⟨opened, rfl, Scan.feed_append_eq_ok.mpr ⟨inner, hinner, ?_⟩⟩
  refine Scan.feed_cons_eq_ok.mpr ⟨_, Scan.step_closing.mpr ⟨_, _, hown, rfl, rfl⟩, ?_⟩
  let closed : Scan :=
    ⟨')' :: inner.out, s.stack, some ⟨s.out.length, (')' :: inner.out).length⟩, inner.switchPending⟩
  have hparams : closureParams? closed.out closed.group = some (barred (trim m.out) s.out) := by
    have hout : inner.out = m.out ++ '(' :: s.out := hend.out
    dsimp only [closed]
    rw [hout]
    exact closureParams?_group m.out s.out
  have hmark : closed.inSwitch = false := houtside
  rw [← hend.pending]
  exact feed_closure hb hmark hparams

theorem feed_word {text : List Char} (ht : Tidy s (text ++ sources (bs ++ [.arrow])))
    (hl : (Lexeme.word text).Stands (sources (bs ++ [.arrow]))) (hvar : text ≠ "var".toList)
    (himport : text ≠ "import".toList) (hswitch : text ≠ "switch".toList) (houtside : s.inSwitch = false)
    (hdot : s.afterDot = false) (hrun : s.out.head?.any isWordPart = false) (hb : Blanks bs) :
    s.feed p [] (.word text :: (bs ++ [.arrow])) =
      .ok { s with out := barred text.reverse s.out, group := none } := by
  have hvisible : firstVisible? (sources (bs ++ [.arrow])) = some '=' := by
    rw [sources_append, firstVisible?_blanks hb]
    rfl
  obtain ⟨s', hstep⟩ : ∃ s', s.step p (sources (bs ++ [.arrow])) (.word text) = .ok s' :=
    Scan.exists_step_word.mpr (.inr ⟨himport, fun hrequire => by
      rw [hvisible] at hrequire
      cases hrequire.2⟩)
  have hcopy : s' = s.write text := by
    have hnot : Scan.isSwitch (.word text) = false := by simpa [Scan.isSwitch] using hswitch
    rw [Scan.step_word_eq hstep, if_neg fun hlet => hvar hlet.1]
    simp [Scan.copy, Scan.write, hnot]
  obtain ⟨t, -, hout, hparams⟩ := word_of_step ht hl hstep
  have htext : t.reverse = text.reverse := by
    rw [hcopy] at hout
    exact List.append_cancel_right hout.symm
  rw [if_neg (by simp [hdot, hrun]), htext] at hparams
  refine Scan.feed_cons_eq_ok.mpr ⟨s', by rwa [List.append_nil], ?_⟩
  rw [feed_closure hb _ hparams, hcopy]
  · rfl
  · rw [hcopy]
    exact houtside

end Feed

/-! ## Arrows in place -/

theorem parts_opening : Parts '(' := ⟨by decide, by decide, by decide, by decide⟩

theorem parts_closing : Parts ')' := ⟨by decide, by decide, by decide, by decide⟩

/-- A word character parts code from what follows, unless it goes on with a word. -/
theorem parts_of_isWordPart {c : Char} (h : isWordPart c = true) : Parts c := by
  refine ⟨?_, ?_, ?_, ?_⟩ <;> rintro rfl <;> exact absurd h (by decide)

theorem EndsInCode.last {text : String} {ls : List Lexeme} (h : EndsInCode text)
    (hr : Reads text.toList ls) : ∀ l ∈ ls.getLast?, l.isLineComment = false := by
  obtain ⟨ms, hms, hlast⟩ := h
  rwa [hr.unique hms]

namespace OpenCode

variable {a : String} {s s' : Scan} {la ls : List Lexeme}

/-- In front of a parenthesis the pass is as it is over the text alone, if a parenthesis may stand
there. -/
theorem feed_parenthesis {tail : List Char} (h : OpenCode a s) (hr : Reads a.toList la)
    (hopen : ∃ m, Scanned (a ++ "(") m) : Scan.start.feed Position.start ('(' :: tail) la = .ok s := by
  obtain ⟨m, hm⟩ := hopen
  obtain ⟨ms, hms, hfeed⟩ := scanned_iff.mp hm
  have hfront : InFront ['('] la := hr.2.inFront (h.code.last hr)
    (by rintro _ ⟨⟩; exact parts_opening) (by rintro - _ ⟨⟩; decide)
  have hreads : Reads (a ++ "(").toList (la ++ [.opening '(']) := by
    refine ⟨?_, inFront_nil.mp (inFront_append.mpr ⟨hfront, rfl, trivial⟩)⟩
    rw [String.toList_append, hr.1, sources_append]
    rfl
  obtain rfl := hms.unique hreads
  obtain ⟨s₀, hs₀, -⟩ := Scan.feed_append_eq_ok.mp hfeed
  obtain rfl : s₀ = s := by
    refine Scanned.unique (scanned_iff.mpr ⟨la, hr, Scan.feed_tail ?_ ?_ hs₀⟩) h.scanned <;> decide
  have hvisible : firstVisible? ('(' :: tail) = some '(' := rfl
  exact Scan.feed_tail (by rw [hvisible]; decide) (fun _ => rfl) hs₀

/-- The text goes on, up to an arrow, and the pass ends with the brackets that were open before. -/
theorem extend {rest : String} (h : OpenCode a s) (hr : Reads a.toList la)
    (hls : rest.toList = sources (ls ++ [.arrow])) (hfront : InFront (sources (ls ++ [.arrow])) la)
    (hp : InPlace (ls ++ [.arrow]))
    (ha : Scan.start.feed Position.start (sources (ls ++ [.arrow])) la = .ok s)
    (hs : s.feed (Position.start.advance (sources la)) [] (ls ++ [.arrow]) = .ok s')
    (hstack : s'.stack = s.stack) (hsettled : s'.switchPending = false) : OpenCode (a ++ rest) s' := by
  have hreads : Reads (a ++ rest).toList (la ++ (ls ++ [.arrow])) := by
    refine ⟨?_, inFront_nil.mp (inFront_append.mpr ⟨by rwa [List.append_nil], inFront_nil.mpr hp⟩)⟩
    rw [String.toList_append, hls, hr.1, sources_append la]
  refine ⟨scanned_iff.mpr ⟨_, hreads, ?_⟩, ⟨_, hreads, fun l hl => ?_⟩, hsettled, ?_⟩
  · exact Scan.feed_append_eq_ok.mpr ⟨s, by rwa [List.append_nil], hs⟩
  · rw [← List.append_assoc, List.getLast?_concat] at hl
    cases hl
    rfl
  · have houtside := h.outside
    unfold Scan.inSwitch at houtside ⊢
    rwa [hstack]

theorem group {p result w : String} (h : OpenCode a s) (hopen : ∃ m, Scanned (a ++ "(") m)
    (hp : Standalone p result) (hw : IsBlankText w) :
    ∃ s', OpenCode (a ++ ("(" ++ p ++ ")" ++ w ++ "=>")) s' ∧ s'.stack = s.stack ∧
      s'.out.reverse = s.out.reverse ++ '|' :: trim result.toList ++ ['|'] := by
  obtain ⟨la, hla, hfeed⟩ := scanned_iff.mp h.scanned
  obtain ⟨lp, m, hlp, hm, hmstack, rfl⟩ := downlevel_eq_ok_iff.mp hp.accepted
  obtain ⟨bs, hbs, hb, hblanks⟩ := exists_blank_lexemes hw
  let ls : List Lexeme := .opening '(' :: (lp ++ .closing ')' :: bs)
  have hls : ls ++ [.arrow] = .opening '(' :: (lp ++ .closing ')' :: (bs ++ [.arrow])) := by simp [ls]
  have hsources : ("(" ++ p ++ ")" ++ w ++ "=>").toList = sources (ls ++ [.arrow]) := by
    simp [ls, hlp.1, hbs, Lexeme.source]
  have hfront : InFront (sources (ls ++ [.arrow])) la := hla.2.inFront (h.code.last hla)
    (by rintro _ ⟨⟩; exact parts_opening) (by rintro - _ ⟨⟩; decide)
  have hinner : InFront (sources (.closing ')' :: (bs ++ [.arrow])) ++ []) lp :=
    hlp.2.inFront (hp.code.last hlp) (by rintro _ ⟨⟩; exact parts_closing) (by rintro - _ ⟨⟩; decide)
  have hplace : InPlace (ls ++ [.arrow]) := by
    rw [hls, ← inFront_nil]
    exact ⟨rfl, inFront_append.mpr ⟨hinner, rfl, inFront_append.mpr ⟨hblanks _, trivial, trivial⟩⟩⟩
  have htidy : Tidy s (sources []) := Passed.tidy (by simpa using hla.2) hfeed
  have hgroup := feed_group (p := Position.start.advance (sources la)) htidy.past h.settled h.outside hm
    hmstack hb
  have hsettled : m.switchPending = false := hp.settled m (scanned_iff.mpr ⟨lp, hlp, hm⟩)
  refine ⟨⟨barred (trim m.out) s.out, s.stack, none, m.switchPending⟩, ?_, rfl, ?_⟩
  · exact h.extend hla hsources hfront hplace (h.feed_parenthesis hla hopen) (hls ▸ hgroup) rfl hsettled
  · simp [barred, trim_reverse]

theorem word {x w : String} (h : OpenCode a s) (hx : IsWord x) (hvar : x ≠ "var")
    (himport : x ≠ "import") (hswitch : x ≠ "switch") (hw : IsBlankText w)
    (hend : ∀ c ∈ a.toList.getLast?, isWordPart c = false ∧ c ≠ '.') :
    ∃ s', OpenCode (a ++ (x ++ w ++ "=>")) s' ∧ s'.stack = s.stack ∧
      s'.out.reverse = s.out.reverse ++ '|' :: x.toList ++ ['|'] := by
  obtain ⟨la, hla, hfeed⟩ := scanned_iff.mp h.scanned
  obtain ⟨bs, hbs, hb, hblanks⟩ := exists_blank_lexemes hw
  obtain ⟨⟨c, cs, hcs, hstart⟩, hall⟩ := hx
  let ls : List Lexeme := .word x.toList :: bs
  have hpart : isWordPart c = true := isWordPart_of_isWordStart hstart
  have hsources : (x ++ w ++ "=>").toList = sources (ls ++ [.arrow]) := by
    simp [ls, hbs, Lexeme.source]
  have hhead : (sources (ls ++ [.arrow])).head? = some c := by
    simp [ls, Lexeme.source, hcs]
  have hrun : ¬ EndsInWord la := by
    unfold EndsInWord
    rw [← hla.1]
    cases hlast : a.toList.getLast? with
    | none => simp
    | some d => simp [(hend d hlast).1]
  have hdot : ¬ EndsInDot la := by
    unfold EndsInDot
    rw [← hla.1]
    exact fun hlast => (hend '.' hlast).2 rfl
  have hfront : InFront (sources (ls ++ [.arrow])) la := by
    refine hla.2.inFront (h.code.last hla) (fun d hd => ?_) fun hword => absurd hword hrun
    rw [hhead] at hd
    cases hd
    exact parts_of_isWordPart hpart
  have hstands : (Lexeme.word x.toList).Stands (sources (bs ++ [.arrow])) :=
    ⟨⟨c, cs, hcs, hstart⟩, hall, not_isWordPart_blanks_arrow hb⟩
  have hplace : InPlace (ls ++ [.arrow]) :=
    ⟨hstands, inFront_nil.mp (inFront_append.mpr ⟨hblanks _, trivial, trivial⟩)⟩
  -- the word does not start with a colon or a parenthesis
  have hvisible : firstVisible? (sources (ls ++ [.arrow])) = some c :=
    firstVisible?_of_head hhead (not_isBlank_of_isWordPart hpart)
  have ha : Passed la (ls ++ [.arrow]) s := by
    refine Scan.feed_tail ?_ ?_ hfeed <;> rw [hvisible]
    · refine iff_of_false ?_ (by decide)
      rintro ⟨⟩
      exact absurd hpart (by decide)
    · rintro ⟨⟩
      exact absurd hpart (by decide)
  have hp : InPlace (la ++ (ls ++ [.arrow])) :=
    inFront_nil.mp (inFront_append.mpr ⟨by rwa [List.append_nil], inFront_nil.mpr hplace⟩)
  have hfree : s.afterDot = false ∧ s.out.head?.any isWordPart = false := by
    rw [← Bool.not_eq_true, ← Bool.not_eq_true, (ha.control hp).dot, ha.run_iff hp]
    exact ⟨hdot, hrun⟩
  have hne : ∀ y : String, x ≠ y → x.toList ≠ y.toList := fun y hy heq => hy (String.toList_inj.mp heq)
  have hword := feed_word (p := Position.start.advance (sources la)) (ha.tidy hp) hstands
    (hne _ hvar) (hne _ himport) (hne _ hswitch) h.outside hfree.1 hfree.2 hb
  refine ⟨{ s with out := barred x.toList.reverse s.out, group := none }, ?_, rfl, ?_⟩
  · exact h.extend hla hsources hfront hplace ha hword rfl h.settled
  · simp [barred]

end OpenCode

/-- **Arrow functions are rewritten in place.** Behind every text that ends in code, and that may
stand in front of a parenthesis, an arrow behind a parenthesized text writes the result for that
text alone, without blanks at its ends, between bars. Behind a text that ends in neither a word nor
a dot, an arrow behind a word writes the word between bars. All that was written and opened before
is kept. -/
theorem arrow_in_place {a : String} {s : Scan} (h : OpenCode a s) :
    (∀ p result w : String, (∃ m, Scanned (a ++ "(") m) → Standalone p result → IsBlankText w →
      ∃ s', OpenCode (a ++ ("(" ++ p ++ ")" ++ w ++ "=>")) s' ∧ s'.stack = s.stack ∧
        s'.out.reverse = s.out.reverse ++ '|' :: trim result.toList ++ ['|']) ∧
    ∀ x w : String, IsWord x → x ≠ "var" → x ≠ "import" → x ≠ "switch" → IsBlankText w →
      (∀ c ∈ a.toList.getLast?, isWordPart c = false ∧ c ≠ '.') →
      ∃ s', OpenCode (a ++ (x ++ w ++ "=>")) s' ∧ s'.stack = s.stack ∧
        s'.out.reverse = s.out.reverse ++ '|' :: x.toList ++ ['|'] :=
  ⟨fun _ _ _ hopen hp hw => h.group hopen hp hw,
    fun _ _ hx hvar himport hswitch hw hend => h.word hx hvar himport hswitch hw hend⟩

/-- Behind `g(a); x.y(`, where an earlier call has left a group behind: a parameter list with an
arrow function inside of it, and a single parameter. -/
theorem arrow_in_place_sample : ∃ s, OpenCode "g(a); x.y(" s ∧
    (∃ s', OpenCode ("g(a); x.y(" ++ ("(" ++ " b, (c) => c " ++ ")" ++ "\n" ++ "=>")) s' ∧
      s'.stack = s.stack ∧ s'.out.reverse = "g(a); x.y(|b, |c| c|".toList) ∧
    ∃ s', OpenCode ("g(a); x.y(" ++ ("require" ++ "" ++ "=>")) s' ∧ s'.stack = s.stack ∧
      s'.out.reverse = "g(a); x.y(|require|".toList := by
  let call : List Lexeme := [.word ['g'], .opening '(', .word ['a'], .closing ')', .other ';',
    .other ' ', .word ['x'], .other '.', .word ['y'], .opening '(']
  let params : List Lexeme := [.other ' ', .word ['b'], .other ',', .other ' ', .opening '(',
    .word ['c'], .closing ')', .other ' ', .arrow, .other ' ', .word ['c'], .other ' ']
  have hcall : Reads "g(a); x.y(".toList call := by
    repeat' first | exact reads_nil | refine reads_cons (by rfl) ?_
  have hparams : Reads " b, (c) => c ".toList params := by
    repeat' first | exact reads_nil | refine reads_cons (by rfl) ?_
  have hopened : Reads ("g(a); x.y(" ++ "(").toList (call ++ [.opening '(']) := by
    repeat' first | exact reads_nil | refine reads_cons (by rfl) ?_
  obtain ⟨s, hs, hsettled, houtside, hout⟩ : ∃ s, Scanned "g(a); x.y(" s ∧ s.switchPending = false ∧
      s.inSwitch = false ∧ s.out.reverse = "g(a); x.y(".toList :=
    ⟨_, scanned_iff.mpr ⟨call, hcall, rfl⟩, rfl, rfl, rfl⟩
  obtain ⟨m, hm, hmsettled⟩ : ∃ m, Scanned " b, (c) => c " m ∧ m.switchPending = false :=
    ⟨_, scanned_iff.mpr ⟨params, hparams, rfl⟩, rfl⟩
  have h : OpenCode "g(a); x.y(" s := ⟨hs, ⟨call, hcall, by decide⟩, hsettled, houtside⟩
  have hopen : ∃ n, Scanned ("g(a); x.y(" ++ "(") n := ⟨_, scanned_iff.mpr ⟨_, hopened, rfl⟩⟩
  have haccepted : downlevel " b, (c) => c " = .ok " b, |c| c " :=
    downlevel_eq_ok_iff.mpr ⟨params, _, hparams, rfl, rfl, rfl⟩
  have hinner : Standalone " b, (c) => c " " b, |c| c " :=
    ⟨haccepted, ⟨params, hparams, by decide⟩, fun n hn => by rwa [hn.unique hm]⟩
  obtain ⟨s₁, h₁, hstack₁, hout₁⟩ :=
    (arrow_in_place h).1 " b, (c) => c " " b, |c| c " "\n" hopen hinner (by decide)
  have hword : IsWord "require" := ⟨⟨'r', _, rfl, by decide⟩, List.all_eq_true.mp (by decide)⟩
  have hends : ∀ c ∈ "g(a); x.y(".toList.getLast?, isWordPart c = false ∧ c ≠ '.' := by
    rintro _ ⟨⟩
    decide
  obtain ⟨s₂, h₂, hstack₂, hout₂⟩ := (arrow_in_place h).2 "require" "" hword (by decide) (by decide)
    (by decide) (by decide) hends
  refine ⟨s, h, ⟨s₁, h₁, hstack₁, ?_⟩, s₂, h₂, hstack₂, ?_⟩
  · rw [hout₁, hout]
    decide
  · rw [hout₂, hout]
    decide

end PackHost.Source
