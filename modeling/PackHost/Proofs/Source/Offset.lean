import PackHost.Proofs.Source.Arrow
import PackHost.Proofs.Source.Draft

/-!
# Remembered places stay places

`Held` says where the brackets and the group that the pass remembers stand in the written text, and
every lexeme keeps it so (`Held.step`): an arrow cuts off what stands above all open brackets, and
forgets the group. So every place in bytes is one between two characters, no cut fails, and the pass
with places in bytes is the pass itself. The main statement is `draft_in_range`.
-/

namespace PackHost.Source

open Text (from? upTo? between? truncate? places)
open String (utf8Len)

/-! ## What is remembered -/

/-- The open brackets and the group that was closed last stand in the written text where they are
said to stand, the inner brackets behind the outer ones, and none inside the group. -/
structure Held (s : Scan) : Prop where
  brackets : ∀ b ∈ s.stack, isOpening b.bracket ∧
    ∃ base, base.length = b.written ∧ b.bracket :: base <:+ s.out
  inner : s.stack.Pairwise fun b b' => b'.written < b.written
  group : ∀ g ∈ s.group, ∃ inside base, ')' :: (inside ++ '(' :: base) <:+ s.out ∧
    g = ⟨base.length, base.length + inside.length + 2⟩
  apart : ∀ g ∈ s.group, ∀ b ∈ s.stack, b.written < g.first ∨ g.last ≤ b.written

namespace Held

variable {s s' : Scan} {p : Position} {rest : List Char} {l : Lexeme}

theorem start : Held Scan.start where
  brackets b hb := by cases hb
  inner := List.Pairwise.nil
  group g hg := by cases hg
  apart g hg := by cases hg

theorem written_lt (h : Held s) {b : OpenBracket} (hb : b ∈ s.stack) :
    b.written < s.out.length := by
  obtain ⟨-, base, hlength, hbase⟩ := h.brackets b hb
  have := hbase.length_le
  simp only [List.length_cons] at this
  omega

theorem last_le (h : Held s) {g : Group} (hg : g ∈ s.group) : g.last ≤ s.out.length := by
  obtain ⟨inside, base, hinside, rfl⟩ := h.group g hg
  have := hinside.length_le
  simp only [List.length_cons, List.length_append] at this
  dsimp only
  omega

theorem copy (h : Held s) (l : Lexeme) (text : List Char) : Held (s.copy l text) where
  brackets b hb := by
    obtain ⟨hopening, base, hlength, hbase⟩ := h.brackets b hb
    exact ⟨hopening, base, hlength, hbase.trans (List.suffix_append _ _)⟩
  inner := h.inner
  group g hg := by
    obtain ⟨inside, base, hinside, hg⟩ := h.group g hg
    exact ⟨inside, base, hinside.trans (List.suffix_append _ _), hg⟩
  apart := h.apart

theorem openBracket (h : Held s) {bracket : Char} (hopening : isOpening bracket) :
    Held (s.openBracket p bracket) where
  brackets b hb := by
    rcases List.mem_cons.mp hb with rfl | hb
    · exact ⟨hopening, s.out, rfl, List.suffix_refl _⟩
    · obtain ⟨hopening, base, hlength, hbase⟩ := h.brackets b hb
      exact ⟨hopening, base, hlength, hbase.trans (List.suffix_cons _ _)⟩
  inner := List.pairwise_cons.mpr ⟨fun _ hb => h.written_lt hb, h.inner⟩
  group g hg := by
    obtain ⟨inside, base, hinside, hg⟩ := h.group g hg
    exact ⟨inside, base, hinside.trans (List.suffix_cons _ _), hg⟩
  apart g hg b hb := by
    rcases List.mem_cons.mp hb with rfl | hb
    · exact .inr (h.last_le hg)
    · exact h.apart g hg b hb

theorem closeBracket (h : Held s) {c : Char} (hstep : s.step p rest (.closing c) = .ok s') :
    Held s' := by
  obtain ⟨b, stack, hstack, hc, rfl⟩ := Scan.step_closing.mp hstep
  have hb : b ∈ s.stack := hstack ▸ List.mem_cons_self
  have htail : ∀ b' ∈ stack, b' ∈ s.stack := fun b' hb' => hstack ▸ List.mem_cons_of_mem b hb'
  have hinner := h.inner
  rw [hstack] at hinner
  obtain ⟨hbelow, hpairs⟩ := List.pairwise_cons.mp hinner
  obtain ⟨hopening, base, hlength, hbase⟩ := h.brackets b hb
  constructor
  · intro b' hb'
    obtain ⟨hopening, base, hlength, hbase⟩ := h.brackets b' (htail b' hb')
    exact ⟨hopening, base, hlength, hbase.trans (List.suffix_cons _ _)⟩
  · exact hpairs
  · intro g hg
    dsimp only at hg ⊢
    split at hg
    · next hround =>
      cases hg
      have hparen : b.bracket = '(' := eq_of_closingOf hopening (hround ▸ hc)
      rw [hparen] at hbase
      obtain ⟨inside, hinside⟩ := hbase
      have hends : ')' :: (inside ++ '(' :: base) = c :: s.out := by rw [hround, hinside]
      refine ⟨inside, base, hends ▸ List.suffix_refl _, ?_⟩
      rw [← hlength, ← hinside]
      simp only [List.length_cons, List.length_append, Group.mk.injEq, true_and]
      omega
    · obtain ⟨inside, base, hinside, hg⟩ := h.group g hg
      exact ⟨inside, base, hinside.trans (List.suffix_cons _ _), hg⟩
  · intro g hg b' hb'
    dsimp only at hg hb'
    split at hg
    · cases hg
      exact .inl (hbelow b' hb')
    · exact h.apart g hg b' (htail b' hb')

/-- **An arrow cuts above all open brackets.** -/
theorem suffix_closure (h : Held s) {out : List Char}
    (hout : closureParams? s.out s.group = some out) {b : OpenBracket} (hb : b ∈ s.stack)
    {base : List Char} (hlength : base.length = b.written) (hbase : b.bracket :: base <:+ s.out) :
    b.bracket :: base <:+ out := by
  obtain ⟨hopening, -⟩ := h.brackets b hb
  have hclass : Text.isBlank b.bracket = false ∧ isWordPart b.bracket = false := by
    rcases eq_of_isOpening hopening with heq | heq | heq <;> rw [heq] <;> decide
  exact suffix_closureParams? hclass.1 hclass.2 hbase
    (fun g hg => hlength ▸ h.apart g hg b hb) hout

theorem arrow (h : Held s) : Held s.arrow := by
  have hforgot : ∀ out, (∀ b ∈ s.stack, ∀ base, base.length = b.written →
      b.bracket :: base <:+ s.out → b.bracket :: base <:+ out) →
      Held { s with out, group := none } := by
    intro out hkeep
    refine ⟨fun b hb => ?_, h.inner, (fun g hg => by cases hg), (fun g hg => by cases hg)⟩
    obtain ⟨hopening, base, hlength, hbase⟩ := h.brackets b hb
    exact ⟨hopening, base, hlength, hkeep b hb base hlength hbase⟩
  cases hs : s.inSwitch with
  | true =>
    rw [Scan.arrow_inSwitch hs, ← Scan.copy_eq_write (l := .arrow) rfl]
    exact h.copy .arrow _
  | false =>
    cases hout : closureParams? s.out s.group with
    | none =>
      rw [Scan.arrow_alone hs hout]
      exact hforgot _ fun b hb base _ hbase => hbase.trans ⟨['>', '='], rfl⟩
    | some out =>
      rw [Scan.arrow_closure hs hout]
      exact hforgot out fun b hb base hlength hbase => h.suffix_closure hout hb hlength hbase

/-- **Every lexeme keeps remembered places.** -/
theorem step (h : Held s) (hl : l.Stands rest) (hstep : s.step p rest l = .ok s') : Held s' := by
  cases hb : l.isBracket with
  | false =>
    by_cases ha : l = .arrow
    · subst ha
      cases hstep
      exact h.arrow
    · obtain ⟨t, -, rfl⟩ := Scan.step_leaf hb ha hstep
      exact h.copy l t
  | true =>
    cases l with
    | opening bracket =>
      cases hstep
      exact h.openBracket hl
    | closing c => exact h.closeBracket hstep
    | _ => cases hb

end Held

/-! ## The same state, with places in bytes -/

/-- How many bytes the first characters of the reversed text take. -/
def offset (out : List Char) (n : Nat) : Nat := utf8Len (out.reverse.take n)

theorem offset_of_suffix {base out : List Char} (h : base <:+ out) :
    offset out base.length = utf8Len base := by
  obtain ⟨top, rfl⟩ := h
  rw [offset, List.reverse_append, ← List.length_reverse, List.take_left, String.utf8Len_reverse]

def OpenBracket.mark (out : List Char) (b : OpenBracket) : OpenMark :=
  ⟨b.bracket, b.place, offset out b.written, b.isSwitchBody⟩

def Group.span (out : List Char) (g : Group) : GroupSpan := ⟨offset out g.first, offset out g.last⟩

/-- The state, with places in bytes, when so many characters were read and the next one stands at
the given place. -/
def Scan.draft (read : Nat) (p : Position) (s : Scan) : Draft :=
  ⟨read, p, s.out.reverse, s.stack.map (OpenBracket.mark s.out), s.group.map (Group.span s.out),
    s.switchPending⟩

theorem span_of_suffix {inside base out : List Char} (h : ')' :: (inside ++ '(' :: base) <:+ out) :
    Group.span out ⟨base.length, base.length + inside.length + 2⟩ =
      ⟨utf8Len base, utf8Len (')' :: (inside ++ '(' :: base))⟩ := by
  have hlength : base.length + inside.length + 2 = (')' :: (inside ++ '(' :: base)).length := by
    simp only [List.length_cons, List.length_append]
    omega
  have hbase : base <:+ out := List.IsSuffix.trans ⟨')' :: (inside ++ ['(']), by simp⟩ h
  rw [Group.span, hlength, offset_of_suffix h, offset_of_suffix hbase]

namespace Held

variable {s : Scan}

/-- Places stay the same while the text up to them does. -/
theorem map_mark (h : Held s) {out : List Char} (stack : List OpenBracket)
    (hstack : ∀ b ∈ stack, b ∈ s.stack)
    (hkeep : ∀ b ∈ stack, ∀ base, base.length = b.written → b.bracket :: base <:+ s.out →
      b.bracket :: base <:+ out) :
    stack.map (OpenBracket.mark out) = stack.map (OpenBracket.mark s.out) := by
  refine List.map_congr_left fun b hb => ?_
  obtain ⟨-, base, hlength, hbase⟩ := h.brackets b (hstack b hb)
  have hbelow := (List.suffix_cons b.bracket base).trans hbase
  have hbelow' := (List.suffix_cons b.bracket base).trans (hkeep b hb base hlength hbase)
  rw [OpenBracket.mark, OpenBracket.mark, ← hlength, offset_of_suffix hbelow,
    offset_of_suffix hbelow']

theorem map_span (h : Held s) {out : List Char} (hout : s.out <:+ out) :
    s.group.map (Group.span out) = s.group.map (Group.span s.out) := by
  refine Option.map_congr fun g hg => ?_
  obtain ⟨inside, base, hinside, rfl⟩ := h.group g hg
  rw [span_of_suffix hinside, span_of_suffix (hinside.trans hout)]

end Held

/-! ## Parameters taken out by cutting -/

theorem trimEnd_reverse (out : List Char) :
    trimEnd out.reverse = (out.dropWhile Text.isBlank).reverse := by
  rw [trimEnd, List.reverse_reverse]

theorem withParams_reverse (base params : List Char) :
    withParams base.reverse params.reverse = (barred params base).reverse := by
  simp [withParams, barred]

/-- A group that ends the visible text is taken out: all four cuts are at its parentheses. -/
theorem rewriteGroup?_of_ends (blanks inside base : List Char) :
    let group := ')' :: (inside ++ '(' :: base)
    rewriteGroup? (blanks ++ group).reverse (utf8Len group) (some ⟨utf8Len base, utf8Len group⟩) =
      some (some (barred (trim inside) base).reverse) := by
  intro group
  have hopen : '('.utf8Size = 1 := by decide
  have hclose : ')'.utf8Size = 1 := by decide
  have hwidth : utf8Len group = utf8Len base + 1 + utf8Len inside + 1 := by
    simp only [group, String.utf8Len_cons, String.utf8Len_append, hopen, hclose]
    omega
  have htext : (blanks ++ group).reverse =
      base.reverse ++ '(' :: (inside.reverse ++ ')' :: blanks.reverse) := by
    simp [group]
  have hbase : utf8Len base = utf8Len base.reverse := (String.utf8Len_reverse base).symm
  have hparams : between? (utf8Len base + 1) (utf8Len group - 1) (blanks ++ group).reverse =
      some inside.reverse := by
    have hcut := Text.between?_utf8Len (base.reverse ++ ['(']) inside.reverse
      (')' :: blanks.reverse)
    have hfirst : utf8Len (base.reverse ++ ['(']) = utf8Len base + 1 := by
      simp [hopen]
    rw [hfirst, String.utf8Len_reverse] at hcut
    rw [hwidth, Nat.add_sub_cancel, htext]
    simpa using hcut
  have hfrom : from? (utf8Len base) (blanks ++ group).reverse =
      some ('(' :: (inside.reverse ++ ')' :: blanks.reverse)) := by
    rw [htext, hbase, Text.from?_utf8Len]
  have hkept : truncate? (utf8Len base) (blanks ++ group).reverse = some base.reverse := by
    rw [htext, hbase, Text.truncate?_utf8Len]
  have hlt : utf8Len base < utf8Len group := by omega
  rw [rewriteGroup?, if_pos ⟨rfl, hlt⟩]
  simp only [hfrom, hparams, hkept, Option.bind_some, List.head?_cons, if_true, Option.map_some]
  rw [trim_reverse, withParams_reverse]

theorem mem_of_mem_places {n : Nat} {text : List Char} {x : Nat × Char} (h : x ∈ places n text) :
    x.2 ∈ text := by
  rw [← Text.map_snd_places n text]
  exact List.mem_map_of_mem h

/-- The run of word characters at the end of a text begins behind all that is before it. -/
theorem wordStart?_reverse (trimmed : List Char) :
    wordStart? trimmed.reverse = (trimmed.takeWhile isWordPart).getLast?.map fun _ =>
      utf8Len (trimmed.dropWhile isWordPart) := by
  let word := trimmed.takeWhile isWordPart
  let before := trimmed.dropWhile isWordPart
  have htrimmed : trimmed.reverse = before.reverse ++ word.reverse := by
    rw [← List.reverse_append, List.takeWhile_append_dropWhile]
  have hword : ∀ x ∈ (places (utf8Len before.reverse) word.reverse).reverse,
      isWordPart x.2 = true := fun x hx =>
    List.mem_takeWhile_imp (List.mem_reverse.mp (mem_of_mem_places (List.mem_reverse.mp hx)))
  -- the character before the run, if there is one, is no word character
  have hbefore : ∀ x ∈ (places 0 before.reverse).reverse.head?, isWordPart x.2 = false := by
    intro x hx
    have hhead : ((places 0 before.reverse).reverse.map Prod.snd).head? = before.head? := by
      rw [List.map_reverse, Text.map_snd_places, List.reverse_reverse]
    rw [List.head?_map, Option.mem_def.mp hx] at hhead
    exact head_dropWhile_false x.2 hhead.symm
  rw [wordStart?, htrimmed, Text.places_append, Nat.zero_add, List.reverse_append,
    List.takeWhile_append_of_pos hword, takeWhile_eq_nil hbefore, List.append_nil,
    List.getLast?_reverse]
  have hfirst : word.reverse.head? = word.getLast? := List.head?_reverse
  change _ = word.getLast?.map fun _ => utf8Len before
  rw [← hfirst, String.utf8Len_reverse]
  cases word.reverse <;> rfl

/-- The word in front of an arrow is its parameter if it begins like one and follows no point. -/
theorem closureOfWord?_eq (out : List Char) :
    closureOfWord? out = (out.takeWhile isWordPart).getLast?.bind fun c =>
      if isWordStart c ∧ (out.dropWhile isWordPart).head? ≠ some '.' then
        some (barred (out.takeWhile isWordPart) (out.dropWhile isWordPart))
      else none := by
  unfold closureOfWord?
  dsimp only
  cases (out.takeWhile isWordPart).getLast? <;> rfl

theorem rewriteWord?_reverse (blanks trimmed : List Char) :
    rewriteWord? (blanks ++ trimmed).reverse (utf8Len trimmed) =
      some ((closureOfWord? trimmed).map List.reverse) := by
  let word := trimmed.takeWhile isWordPart
  let before := trimmed.dropWhile isWordPart
  have hsplit : word ++ before = trimmed := List.takeWhile_append_dropWhile
  have hupTo : upTo? (utf8Len trimmed) (blanks ++ trimmed).reverse = some trimmed.reverse := by
    rw [List.reverse_append, ← String.utf8Len_reverse trimmed, Text.upTo?_utf8Len]
  have htrimmed : trimmed.reverse = before.reverse ++ word.reverse := by
    rw [← List.reverse_append, hsplit]
  have hbefore : utf8Len before = utf8Len before.reverse := (String.utf8Len_reverse before).symm
  have hfrom : from? (utf8Len before) trimmed.reverse = some word.reverse := by
    rw [htrimmed, hbefore, Text.from?_utf8Len]
  have hto : upTo? (utf8Len before) trimmed.reverse = some before.reverse := by
    rw [htrimmed, hbefore, Text.upTo?_utf8Len]
  have hkept : truncate? (utf8Len before) (blanks ++ trimmed).reverse = some before.reverse := by
    rw [List.reverse_append, htrimmed, hbefore, List.append_assoc, Text.truncate?_utf8Len]
  have hfirst : word.reverse.head? = word.getLast? := List.head?_reverse
  have hlast : before.reverse.getLast? = before.head? := List.getLast?_reverse
  have hstart : wordStart? trimmed.reverse = word.getLast?.map fun _ => utf8Len before :=
    wordStart?_reverse trimmed
  simp only [rewriteWord?, hupTo, Option.bind_some, hstart, closureOfWord?_eq]
  change _ = some ((word.getLast?.bind fun c =>
    if isWordStart c ∧ before.head? ≠ some '.' then some (barred word before) else none).map
      List.reverse)
  cases hc : word.getLast? with
  | none => rfl
  | some c =>
    simp only [Option.map_some, hfrom, hto, hkept, Option.bind_some, hfirst, hlast, hc,
      Option.any_some, withParams_reverse]
    split <;> rfl

/-- **No cut for an arrow fails**, and what they take out is what the pass takes out. -/
theorem Held.rewriteParams? {s : Scan} (h : Held s) :
    PackHost.Source.rewriteParams? s.out.reverse (s.group.map (Group.span s.out)) =
      some ((closureParams? s.out s.group).map List.reverse) := by
  let blanks := s.out.takeWhile Text.isBlank
  let trimmed := s.out.dropWhile Text.isBlank
  have hblanks : ∀ c ∈ blanks, Text.isBlank c = true := fun c hc => List.mem_takeWhile_imp hc
  have hsplit : blanks ++ trimmed = s.out := List.takeWhile_append_dropWhile
  have hvisible : ∀ c ∈ trimmed.head?, Text.isBlank c = false := head_dropWhile_false
  have hclosure : closureParams? s.out s.group = closureParams? trimmed s.group := by
    rw [← hsplit, closureParams?_blanks hblanks]
  have hstop : utf8Len (trimEnd s.out.reverse) = utf8Len trimmed := by
    rw [trimEnd_reverse, String.utf8Len_reverse]
  -- without a group that ends the visible text, both look for a word
  have hword : (∀ g ∈ s.group, g.last < trimmed.length) →
      rewriteGroup? s.out.reverse (utf8Len trimmed) (s.group.map (Group.span s.out)) =
        some none →
      PackHost.Source.rewriteParams? s.out.reverse (s.group.map (Group.span s.out)) =
        some ((closureParams? s.out s.group).map List.reverse) := by
    intro hshort hnone
    rw [PackHost.Source.rewriteParams?, hstop, hnone, Option.bind_some, hclosure,
      closureParams?_of_visible hvisible hshort, ← rewriteWord?_reverse blanks, hsplit]
  cases hgroup : s.group with
  | none =>
    rw [hgroup] at hword
    exact hword (fun g hg => by cases hg) rfl
  | some g =>
    obtain ⟨inside, base, hinside, rfl⟩ := h.group g hgroup
    rw [hgroup] at hword hclosure
    rw [Option.map_some, span_of_suffix hinside] at hword ⊢
    generalize hends : ')' :: (inside ++ '(' :: base) = group at *
    have hlength : base.length + inside.length + 2 = group.length := by
      rw [← hends]
      simp only [List.length_cons, List.length_append]
      omega
    have htrimmed : group <:+ trimmed := by
      rw [← hends] at hinside ⊢
      exact suffix_dropWhile (by decide) hinside
    by_cases heq : group = trimmed
    · -- all cuts are at the parentheses of the group
      have hcuts := rewriteGroup?_of_ends blanks inside base
      have hmoved := closureParams?_group inside base
      simp only [hends, heq] at hcuts hmoved
      rw [hsplit] at hcuts
      rw [PackHost.Source.rewriteParams?, hstop, heq, hcuts, Option.bind_some, hclosure, hlength,
        heq, hmoved]
      rfl
    · obtain ⟨top, htop⟩ := htrimmed
      have hne : top ≠ [] := by
        rintro rfl
        exact heq htop
      have hwider : utf8Len group ≠ utf8Len trimmed := by
        rw [← htop, String.utf8Len_append]
        have := mt String.utf8Len_eq_zero.mp hne
        omega
      have hlonger : group.length < trimmed.length := by
        rw [← htop, List.length_append]
        have := List.length_pos_iff.mpr hne
        omega
      refine hword (fun g hg => ?_) ?_
      · cases hg
        rwa [hlength]
      · rw [rewriteGroup?, if_neg fun hcond => hwider hcond.1]

/-! ## The pass and its draft -/

/-- Lexemes that are neither brackets nor arrows look at nothing that is remembered. -/
theorem Scan.step_forgetful (s : Scan) (p : Position) (rest : List Char) {l : Lexeme}
    (hb : l.isBracket = false) (ha : l ≠ .arrow) :
    s.step p rest l = (Scan.step ⟨s.out, [], none, s.switchPending⟩ p rest l).map fun t =>
      { s with out := t.out, switchPending := t.switchPending } := by
  cases l with
  | opening => cases hb
  | closing => cases hb
  | arrow => exact absurd rfl ha
  | word text =>
    simp only [step, word, afterDot, apply_ite (Except.map _)]
    rfl
  | _ => rfl

namespace Held

variable {s s' : Scan} {p : Position} {rest source : List Char} {read : Nat} {l : Lexeme}

/-- More text behind what was written leaves the places alone. -/
theorem draft_longer (h : Held s) (read : Nat) (p : Position) {out : List Char}
    (hout : s.out <:+ out) (pending : Bool) :
    Scan.draft read p { s with out, switchPending := pending } =
      { s.draft read p with out := out.reverse, switchPending := pending } := by
  have hmarks := h.map_mark s.stack (fun _ hb => hb)
    fun b _ base _ hbase => hbase.trans hout
  simp only [Scan.draft, hmarks, h.map_span hout]

/-- A forgotten group leaves only the places of the brackets. -/
theorem draft_forgotten (h : Held s) (read : Nat) (p : Position) (out : List Char)
    (hkeep : ∀ b ∈ s.stack, ∀ base, base.length = b.written → b.bracket :: base <:+ s.out →
      b.bracket :: base <:+ out) :
    Scan.draft read p { s with out, group := none } =
      { s.draft read p with out := out.reverse, group := none } := by
  simp only [Scan.draft, h.map_mark s.stack (fun _ hb => hb) hkeep, Option.map_none]

theorem draft_openBracket (h : Held s) (bracket : Char) :
    Scan.draft read p (s.openBracket p bracket) = (s.draft read p).openBracket bracket := by
  have hout : s.out <:+ bracket :: s.out := List.suffix_cons _ _
  have hmarks := h.map_mark s.stack (fun _ hb => hb)
    fun b _ base _ hbase => hbase.trans hout
  have hmark : offset (bracket :: s.out) s.out.length = utf8Len s.out.reverse := by
    rw [offset_of_suffix hout, String.utf8Len_reverse]
  simp only [Scan.draft, Scan.openBracket, Draft.openBracket, List.map_cons, hmarks,
    h.map_span hout, OpenBracket.mark, hmark, List.reverse_cons]

theorem draft_closeBracket (h : Held s) (c : Char) :
    (s.draft read p).closeBracket c = (s.closeBracket p c).map (Scan.draft read p) := by
  have hout : s.out <:+ c :: s.out := List.suffix_cons _ _
  cases hstack : s.stack with
  | nil => simp [Scan.closeBracket, Draft.closeBracket, Scan.draft, hstack, Except.map]
  | cons b stack =>
    have hmarks := h.map_mark s.stack (fun _ hb => hb)
      fun b _ base _ hbase => hbase.trans hout
    rw [hstack, List.map_cons, List.map_cons, List.cons.injEq] at hmarks
    have hfirst : offset (c :: s.out) b.written = offset s.out b.written :=
      congrArg OpenMark.offset hmarks.1
    have hlast : offset (c :: s.out) (s.out.length + 1) = utf8Len (s.out.reverse ++ [c]) := by
      rw [← List.length_cons, offset_of_suffix (List.suffix_refl _), ← List.reverse_cons,
        String.utf8Len_reverse]
    have hgroup : (if c = ')' then some (⟨b.written, s.out.length + 1⟩ : Group) else s.group).map
        (Group.span (c :: s.out)) =
          if c = ')' then some ⟨offset s.out b.written, utf8Len (s.out.reverse ++ [c])⟩
          else s.group.map (Group.span s.out) := by
      split
      · rw [Option.map_some, Group.span, hfirst, hlast]
      · exact h.map_span hout
    simp only [Draft.closeBracket, Scan.closeBracket, Scan.draft, hstack, List.map_cons,
      OpenBracket.mark, List.length_cons]
    split
    · simp only [Except.map, Scan.draft, hgroup, hmarks.2, List.reverse_cons]
    · rfl

theorem arrow? (h : Held s) : (s.draft read p).arrow? = some (s.arrow.draft read p) := by
  have hwrite : s.out <:+ '>' :: '=' :: s.out := ⟨['>', '='], rfl⟩
  have hswitch : (s.draft read p).inSwitch = s.inSwitch := by
    simp [Draft.inSwitch, Scan.inSwitch, Scan.draft, OpenBracket.mark, Function.comp_def]
  cases hs : s.inSwitch with
  | true =>
    rw [Draft.arrow?, hswitch, hs, if_pos rfl, Scan.arrow_inSwitch hs]
    have hlonger := h.draft_longer read p hwrite s.switchPending
    refine congrArg some (Eq.trans ?_ hlonger.symm)
    simp [Draft.write, Scan.draft]
  | false =>
    rw [Draft.arrow?, hswitch, hs]
    have hcuts := h.rewriteParams?
    change (PackHost.Source.rewriteParams? s.out.reverse (s.group.map (Group.span s.out))).map _ = _
    rw [hcuts]
    cases hout : closureParams? s.out s.group with
    | none =>
      have hforgotten := h.draft_forgotten read p _
        fun b _ base _ hbase => hbase.trans hwrite
      rw [Scan.arrow_alone hs hout, hforgotten]
      simp [Draft.write, Scan.draft]
    | some out =>
      have hforgotten := h.draft_forgotten read p out
        fun b hb base hlength hbase => h.suffix_closure hout hb hlength hbase
      rw [Scan.arrow_closure hs hout, hforgotten]
      rfl

/-- **The draft does what the pass does**, and no cut fails. -/
theorem step? (h : Held s) (hread : read + l.source.length ≤ source.length)
    (hrest : source.drop (read + l.source.length) = rest) :
    (s.draft read p).step? source l = some ((s.step p rest l).map (Scan.draft read p)) := by
  cases hb : l.isBracket with
  | false =>
    by_cases ha : l = .arrow
    · subst ha
      exact congrArg (Option.map Except.ok) h.arrow?
    · have hleaf : (s.draft read p).step? source l =
          (unread? (read + l.source.length) source).map fun rest =>
            (s.draft read p).writeLexeme rest l := by
        cases l with
        | opening => cases hb
        | closing => cases hb
        | arrow => exact absurd rfl ha
        | _ => rfl
      have hout : (s.draft read p).out.reverse = s.out := List.reverse_reverse _
      rw [hleaf, unread?, if_pos hread, hrest, Option.map_some, Draft.writeLexeme,
        s.step_forgetful p rest hb ha, hout]
      change some ((Scan.step ⟨s.out, [], none, s.switchPending⟩ p rest l).map _) = _
      cases hstep : Scan.step ⟨s.out, [], none, s.switchPending⟩ p rest l with
      | error f => rfl
      | ok t =>
        obtain ⟨text, -, rfl⟩ := Scan.step_leaf hb ha hstep
        exact congrArg (fun d => some (Except.ok d))
          (h.draft_longer read p (List.suffix_append _ _) _).symm
  | true =>
    cases l with
    | opening bracket =>
      exact congrArg (fun d => some (Except.ok d)) (h.draft_openBracket bracket).symm
    | closing c =>
      exact congrArg some (h.draft_closeBracket c)
    | _ => cases hb

end Held

/-! ## The whole pass -/

/-- Where a lexeme behind the first characters of a text ends. -/
theorem reading_bounds {source rest : List Char} {n : Nat} {l : Lexeme}
    (h : read? (source.drop n) = some (.lexeme l rest)) :
    n + l.source.length ≤ source.length ∧ source.drop (n + l.source.length) = rest := by
  have happend := append_of_read? h
  have hpos := List.length_pos_iff.mpr (source_ne_nil_of_read? h)
  have hlength := congrArg List.length happend
  simp only [List.length_append, List.length_drop] at hlength
  refine ⟨by omega, ?_⟩
  rw [← List.drop_drop, ← happend, List.drop_left]

theorem Draft.Reached.exists_held {source : List Char} {d : Draft} (h : d.Reached source) :
    ∃ s, Held s ∧ d = s.draft d.read d.place := by
  induction h with
  | start => exact ⟨Scan.start, .start, rfl⟩
  | @step d d' l rest _ hread hstep ih =>
    obtain ⟨s, hs, hd⟩ := ih
    obtain ⟨hbound, hrest⟩ := reading_bounds hread
    rw [hd, hs.step? hbound hrest] at hstep
    cases hscan : s.step d.place rest l with
    | error f =>
      rw [hscan] at hstep
      cases hstep
    | ok s' =>
      rw [hscan] at hstep
      cases hstep
      exact ⟨s', hs.step (stands_of_read? hread) hscan, rfl⟩

theorem Draft.run?_eq (source : List Char) (d : Draft) :
    d.run? source =
      match read? (source.drop d.read) with
      | none => some (.ok d)
      | some .openLiteral => some (.error (.unterminatedString d.place))
      | some .openComment => some (.error (.unterminatedComment d.place))
      | some (.lexeme l _) =>
        match d.step? source l with
        | none => none
        | some (.error f) => some (.error f)
        | some (.ok d') => (d.behind l d').run? source := by
  rw [run?]
  split
  · next hread => rw [hread]
  · next hread => rw [hread]
  · next hread => rw [hread]
  · next hread => exact hread ▸ rfl

theorem Scan.finish_draft (s : Scan) (read : Nat) (p : Position) :
    (s.draft read p).finish = s.finish := by
  unfold Draft.finish finish
  cases hstack : s.stack <;> simp [draft, hstack, OpenBracket.mark]

/-- The draft of a whole text is what the pass makes of it. -/
theorem Held.run? {s : Scan} {p : Position} {source text : List Char} {read : Nat} (h : Held s)
    (htext : source.drop read = text) :
    ((s.draft read p).run? source).map (fun r => r.bind Draft.finish) =
      some ((s.run p text).bind Scan.finish) := by
  fun_induction Scan.run s p text generalizing read with
  | case1 s p text hread =>
    have hdraft : read? (source.drop (s.draft read p).read) = none := htext ▸ hread
    rw [Draft.run?_eq, hdraft]
    exact congrArg some (s.finish_draft read p)
  | case2 s p text hread =>
    have hdraft : read? (source.drop (s.draft read p).read) = some .openLiteral := htext ▸ hread
    rw [Draft.run?_eq, hdraft]
    rfl
  | case3 s p text hread =>
    have hdraft : read? (source.drop (s.draft read p).read) = some .openComment := htext ▸ hread
    rw [Draft.run?_eq, hdraft]
    rfl
  | case4 s p text l rest hread f hstep =>
    rw [← htext] at hread
    obtain ⟨hbound, hrest⟩ := reading_bounds hread
    have hdraft : read? (source.drop (s.draft read p).read) = some (.lexeme l rest) := hread
    rw [Draft.run?_eq, hdraft]
    simp only [h.step? hbound hrest, hstep]
    rfl
  | case5 s p text l rest hread s' hstep ih =>
    rw [← htext] at hread
    obtain ⟨hbound, hrest⟩ := reading_bounds hread
    have hdraft : read? (source.drop (s.draft read p).read) = some (.lexeme l rest) := hread
    rw [Draft.run?_eq, hdraft]
    simp only [h.step? hbound hrest, hstep]
    exact ih (h.step (stands_of_read? hread) hstep) hrest

namespace Held

variable {s : Scan} (h : Held s) (read : Nat) (p : Position)
include h

/-- Each open bracket stands behind as many bytes as are remembered. -/
theorem brackets_draft : ∀ b ∈ (s.draft read p).stack, ∃ before after,
    (s.draft read p).out = before ++ b.bracket :: after ∧ utf8Len before = b.offset := by
  intro b hb
  obtain ⟨b, hmem, rfl⟩ := List.mem_map.mp hb
  obtain ⟨-, base, hlength, top, hbase⟩ := h.brackets b hmem
  refine ⟨base.reverse, top.reverse, ?_, ?_⟩
  · change s.out.reverse = _
    rw [← hbase]
    simp [OpenBracket.mark]
  · have hbelow : base <:+ s.out := ⟨top ++ [b.bracket], by simpa using hbase⟩
    rw [String.utf8Len_reverse, OpenBracket.mark, ← hlength, offset_of_suffix hbelow]

/-- The inner brackets stand behind the outer ones. -/
theorem inner_draft : (s.draft read p).stack.Pairwise fun b b' => b'.offset < b.offset := by
  refine List.pairwise_map.mpr (h.inner.imp_of_mem fun {b b'} hb hb' hlt => ?_)
  obtain ⟨-, base, hlength, top, hbase⟩ := h.brackets b hb
  obtain ⟨-, base', hlength', top', hbase'⟩ := h.brackets b' hb'
  have hbelow : base <:+ s.out := ⟨top ++ [b.bracket], by simpa using hbase⟩
  have hbelow' : base' <:+ s.out := ⟨top' ++ [b'.bracket], by simpa using hbase'⟩
  -- the outer bracket is part of what stands before the inner one
  have houter : b'.bracket :: base' <:+ base := by
    refine List.suffix_of_suffix_length_le ⟨top', hbase'⟩ hbelow ?_
    rw [List.length_cons, hlength, hlength']
    exact hlt
  obtain ⟨between, rfl⟩ := houter
  have hwidth := b'.bracket.utf8Size_pos
  rw [OpenBracket.mark, OpenBracket.mark, ← hlength, ← hlength', offset_of_suffix hbelow,
    offset_of_suffix hbelow', String.utf8Len_append, String.utf8Len_cons]
  dsimp only
  omega

/-- The group reaches from a `(` to behind a `)`. -/
theorem group_draft : ∀ g ∈ (s.draft read p).group, ∃ before inside after,
    (s.draft read p).out = before ++ '(' :: inside ++ ')' :: after ∧
      utf8Len before = g.first ∧ utf8Len before + utf8Len inside + 2 = g.last := by
  intro g hg
  obtain ⟨g, hmem, rfl⟩ := Option.map_eq_some_iff.mp hg
  obtain ⟨inside, base, hinside, rfl⟩ := h.group g hmem
  rw [span_of_suffix hinside]
  obtain ⟨top, htop⟩ := hinside
  have hopen : '('.utf8Size = 1 := by decide
  have hclose : ')'.utf8Size = 1 := by decide
  refine ⟨base.reverse, inside.reverse, top.reverse, ?_, String.utf8Len_reverse base, ?_⟩
  · change s.out.reverse = _
    rw [← htop]
    simp
  · simp only [String.utf8Len_reverse, String.utf8Len_cons, String.utf8Len_append, hopen, hclose]
    omega

end Held

/-- **No cut fails.** In every state that the pass goes through, each open bracket stands in the
written text behind as many bytes as are remembered, the inner ones behind the outer ones, and the
group that was closed last reaches from a `(` to behind a `)`, so that it takes at least two bytes.
All cuts for an arrow have a result there, and so has every lexeme. So the pass with places in bytes
has a result for every text, an error or a text, and it is that of the pass. -/
theorem draft_in_range (source : String) :
    (∀ d, Draft.Reached source.toList d →
      (∀ b ∈ d.stack, ∃ before after,
        d.out = before ++ b.bracket :: after ∧ utf8Len before = b.offset) ∧
      d.stack.Pairwise (fun b b' => b'.offset < b.offset) ∧
      (∀ g ∈ d.group, ∃ before inside after, d.out = before ++ '(' :: inside ++ ')' :: after ∧
        utf8Len before = g.first ∧ utf8Len before + utf8Len inside + 2 = g.last) ∧
      (rewriteParams? d.out d.group).isSome ∧
      ∀ l rest, read? (source.toList.drop d.read) = some (.lexeme l rest) →
        (d.step? source.toList l).isSome) ∧
    draft? source = some (downlevel source) := by
  refine ⟨fun d hd => ?_, ?_⟩
  · obtain ⟨s, hs, heq⟩ := hd.exists_held
    refine ⟨heq ▸ hs.brackets_draft _ _, heq ▸ hs.inner_draft _ _, heq ▸ hs.group_draft _ _, ?_, ?_⟩
    · rw [heq]
      exact Option.isSome_of_eq_some hs.rewriteParams?
    · intro l rest hread
      obtain ⟨hbound, hrest⟩ := reading_bounds hread
      rw [heq, hs.step? hbound hrest]
      rfl
  · have hrun : (Draft.start.run? source.toList).map (fun r => r.bind Draft.finish) =
        some ((Scan.start.run Position.start source.toList).bind Scan.finish) :=
      Held.start.run? rfl
    have hdownlevel : downlevel source =
        (Scan.start.run Position.start source.toList).bind Scan.finish := by
      unfold downlevel
      cases Scan.start.run Position.start source.toList <;> rfl
    rw [hdownlevel, ← hrun]
    rfl

/-- The letters with dots take two bytes each, and the second arrow is behind a cut. -/
theorem draft_in_range_sample :
    draft? "(ä) => ü => ä" = some (.ok "|ä| |ü| ä") ∧
      ∃ d, Draft.Reached "(ä) => ü => ä".toList d ∧ d.group = some ⟨0, 4⟩ ∧
        rewriteParams? d.out d.group = some (some "|ä|".toList) ∧
        (d.step? "(ä) => ü => ä".toList .arrow).isSome := by
  let ls : List Lexeme := [.opening '(', .word ['ä'], .closing ')', .other ' ', .arrow, .other ' ',
    .word ['ü'], .other ' ', .arrow, .other ' ', .word ['ä']]
  have hr : Reads "(ä) => ü => ä".toList ls := by
    repeat' first | exact reads_nil | refine reads_cons (by rfl) ?_
  have h : downlevel "(ä) => ü => ä" = .ok "|ä| |ü| ä" :=
    downlevel_eq_ok_iff.mpr ⟨ls, _, hr, rfl, rfl, rfl⟩
  obtain ⟨hplaces, hdraft⟩ := draft_in_range "(ä) => ü => ä"
  have hopen : Draft.Reached "(ä) => ü => ä".toList _ := .step .start (by rfl) rfl
  have hword := hopen.step (l := .word ['ä']) (by rfl) rfl
  have hclose := hword.step (l := .closing ')') (by rfl) rfl
  have hblank := hclose.step (l := .other ' ') (by rfl) rfl
  obtain ⟨-, -, -, -, hstep⟩ := hplaces _ hblank
  exact ⟨h ▸ hdraft, _, hblank, rfl, rfl, hstep .arrow _ rfl⟩

end PackHost.Source
