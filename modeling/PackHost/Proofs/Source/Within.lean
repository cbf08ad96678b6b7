import Mathlib.Data.List.Forall2
import PackHost.Proofs.Source.Front

/-!
# A pass inside of a text

What the pass does to a text inside of another text is what it does to the text alone, on top of
what was written before (`Within.feed`): its brackets, its members and its arrows look back no
further than to the character in front of the text, if that is one at which all of them stop
(`Stops`).
-/

namespace PackHost.Source

/-- Nothing that looks back over written text goes past its last character. -/
def Stops (base : List Char) : Prop :=
  ∀ c ∈ base.head?, c ≠ '.' ∧ Text.isBlank c = false ∧ isWordPart c = false

theorem stops_nil : Stops [] := fun c hc => by cases hc

theorem stops_parenthesis (before : List Char) : Stops ('(' :: before) := by
  rintro _ ⟨⟩
  exact ⟨by decide, by decide, by decide⟩

/-- The same open bracket, with `n` more characters written before it. -/
structure Lifted (n : Nat) (b c : OpenBracket) : Prop where
  bracket : c.bracket = b.bracket
  mark : c.isSwitchBody = b.isSwitchBody
  written : c.written = b.written + n

/-- The pass inside of a text is in state `t` where the pass over the inner text alone is in state
`s`: the text `base` was written before, and the brackets `stack` were open. -/
structure Within (base : List Char) (stack : List OpenBracket) (s t : Scan) : Prop where
  out : t.out = s.out ++ base
  stack : ∃ inner, t.stack = inner ++ stack ∧ List.Forall₂ (Lifted base.length) s.stack inner
  pending : t.switchPending = s.switchPending

/-- The group that was closed last is the same one, `n` characters later, or the inner text has none
yet and a group from before it is left, which ends more than a character before it. -/
structure GroupWithin (n : Nat) (group group' : Option Group) : Prop where
  lifted : ∀ g ∈ group, group' = some ⟨g.first + n, g.last + n⟩
  stale : group = none → ∀ g ∈ group', g.last < n

/-! ## Arrows -/

section Closure

variable {base : List Char}

theorem dropWhile_append_stop {p : Char → Bool} (h : ∀ c ∈ base.head?, p c = false)
    (text : List Char) : (text ++ base).dropWhile p = text.dropWhile p ++ base := by
  rw [List.dropWhile_append]
  split
  · next hnil =>
    rw [List.isEmpty_iff.mp hnil, List.nil_append, dropWhile_eq_self h]
  · rfl

theorem takeWhile_append_base {p : Char → Bool} (h : ∀ c ∈ base.head?, p c = false)
    (text : List Char) : (text ++ base).takeWhile p = text.takeWhile p := by
  rw [List.takeWhile_append]
  split
  · next hall =>
    rw [takeWhile_eq_nil h, List.append_nil]
    exact (List.takeWhile_prefix p).eq_of_length hall |>.symm
  · rfl

theorem barred_append (params before : List Char) :
    barred params (before ++ base) = barred params before ++ base := by
  simp [barred]

theorem closureOfGroup?_append (text : List Char) (g : Group) :
    closureOfGroup? (text ++ base) ⟨g.first + base.length, g.last + base.length⟩ =
      (closureOfGroup? text g).map (· ++ base) := by
  have hcond : ((text ++ base).length = g.last + base.length ∧
      g.first + base.length < g.last + base.length) ↔ text.length = g.last ∧ g.first < g.last := by
    simp only [List.length_append]
    omega
  have hspan : g.last + base.length - (g.first + base.length) = g.last - g.first := by omega
  unfold closureOfGroup?
  simp only [hcond, hspan]
  split
  · next h =>
    have hle : g.last - g.first ≤ text.length := by omega
    rw [List.take_append_of_le_length hle, List.drop_append_of_le_length hle, barred_append]
    split <;> rfl
  · rfl

theorem closureOfWord?_append (h : Stops base) (text : List Char) :
    closureOfWord? (text ++ base) = (closureOfWord? text).map (· ++ base) := by
  have hstop : ∀ c ∈ base.head?, isWordPart c = false := fun c hc => (h c hc).2.2
  have hdot : (text.dropWhile isWordPart ++ base).head? = some '.' ↔
      (text.dropWhile isWordPart).head? = some '.' := by
    rw [List.head?_append]
    cases (text.dropWhile isWordPart).head? with
    | some c => rfl
    | none =>
      rw [Option.none_or]
      exact iff_of_false (fun hc => (h '.' hc).1 rfl) (by simp)
  unfold closureOfWord?
  simp only [takeWhile_append_base hstop, dropWhile_append_stop hstop, barred_append, ne_eq, hdot]
  split
  · rfl
  · split <;> rfl

theorem closureParams?_append {group group' : Option Group} (h : Stops base)
    (hgroup : GroupWithin base.length group group') (text : List Char) :
    closureParams? (text ++ base) group' = (closureParams? text group).map (· ++ base) := by
  have hblank : ∀ c ∈ base.head?, Text.isBlank c = false := fun c hc => (h c hc).2.1
  have hof : group'.bind (closureOfGroup? (text.dropWhile Text.isBlank ++ base)) =
      (group.bind (closureOfGroup? (text.dropWhile Text.isBlank))).map (· ++ base) := by
    cases group with
    | some g =>
      rw [hgroup.lifted g rfl]
      exact closureOfGroup?_append _ g
    | none =>
      cases group' with
      | none => rfl
      | some g =>
        have hlast := hgroup.stale rfl g rfl
        refine if_neg fun hends => ?_
        have hlength := hends.1
        rw [List.length_append] at hlength
        omega
  unfold closureParams?
  dsimp only
  rw [dropWhile_append_stop hblank, hof, closureOfWord?_append h]
  cases group.bind (closureOfGroup? (text.dropWhile Text.isBlank)) <;> rfl

end Closure

namespace Within

variable {base : List Char} {stack : List OpenBracket} {s s' t : Scan} {p q : Position}
  {rest rest' : List Char} {l : Lexeme}

theorem refl (s : Scan) : Within [] [] s s where
  out := (List.append_nil _).symm
  stack := ⟨s.stack, (List.append_nil _).symm, List.forall₂_same.mpr fun _ _ => ⟨rfl, rfl, rfl⟩⟩
  pending := rfl

theorem length_out (h : Within base stack s t) : t.out.length = s.out.length + base.length := by
  rw [h.out, List.length_append]

theorem afterDot (h : Within base stack s t) (hbase : Stops base) : t.afterDot = s.afterDot := by
  unfold Scan.afterDot
  rw [h.out, List.head?_append]
  cases s.out.head? with
  | some c => rfl
  | none =>
    rw [Option.none_or]
    cases hhead : base.head? with
    | none => rfl
    | some c => simpa using (hbase c hhead).1

/-! ## One step -/

theorem copy (h : Within base stack s t) (hbase : Stops base) (l : Lexeme) (text : List Char) :
    Within base stack (s.copy l text) (t.copy l text) where
  out := by simp [Scan.copy, h.out]
  stack := h.stack
  pending := by simp [Scan.copy, h.pending, h.afterDot hbase]

theorem write (h : Within base stack s t) (text : List Char) :
    Within base stack (s.write text) (t.write text) where
  out := by simp [Scan.write, h.out]
  stack := h.stack
  pending := h.pending

theorem openBracket (h : Within base stack s t) (b : Char) :
    Within base stack (s.openBracket p b) (t.openBracket q b) where
  out := by simp [Scan.openBracket, h.out]
  stack := by
    obtain ⟨inner, hinner, hlifted⟩ := h.stack
    refine ⟨⟨b, q, t.out.length, b == '{' && t.switchPending⟩ :: inner, ?_, .cons ⟨rfl, ?_, ?_⟩ hlifted⟩
    · simp [Scan.openBracket, hinner]
    · simp [h.pending]
    · exact h.length_out
  pending := by simp [Scan.openBracket, h.pending]

theorem inSwitch (h : Within base stack s t)
    (hstack : (stack.head?.map OpenBracket.isSwitchBody).getD false = false) :
    t.inSwitch = s.inSwitch := by
  obtain ⟨inner, hinner, hlifted⟩ := h.stack
  unfold Scan.inSwitch
  rw [hinner]
  generalize s.stack = own at hlifted
  cases hlifted with
  | nil => exact hstack
  | cons hb _ => simp [hb.mark]

theorem arrow (h : Within base stack s t) (hbase : Stops base)
    (hstack : (stack.head?.map OpenBracket.isSwitchBody).getD false = false)
    (hgroup : GroupWithin base.length s.group t.group) :
    Within base stack s.arrow t.arrow ∧ GroupWithin base.length s.arrow.group t.arrow.group := by
  have hparams : closureParams? t.out t.group = (closureParams? s.out s.group).map (· ++ base) := by
    rw [h.out]
    exact closureParams?_append hbase hgroup s.out
  have hmark := h.inSwitch hstack
  have hnone : GroupWithin base.length none none := ⟨by rintro _ ⟨⟩, by rintro _ _ ⟨⟩⟩
  cases hs : s.inSwitch with
  | true =>
    rw [Scan.arrow_inSwitch hs, Scan.arrow_inSwitch (hmark.trans hs)]
    exact ⟨⟨by simp [Scan.write, h.out], h.stack, h.pending⟩, hgroup⟩
  | false =>
    cases hout : closureParams? s.out s.group with
    | none =>
      rw [hout] at hparams
      rw [Scan.arrow_alone hs hout, Scan.arrow_alone (hmark.trans hs) hparams]
      exact ⟨⟨by simp [h.out], h.stack, h.pending⟩, hnone⟩
    | some out =>
      rw [hout] at hparams
      rw [Scan.arrow_closure hs hout, Scan.arrow_closure (hmark.trans hs) hparams]
      exact ⟨⟨rfl, h.stack, h.pending⟩, hnone⟩

/-- **A step inside of a text is the step in the inner text.** -/
theorem step (h : Within base stack s t) (hbase : Stops base) (hl : l ≠ .arrow)
    (colon : firstVisible? rest' = some ':' ↔ firstVisible? rest = some ':')
    (paren : firstVisible? rest' = some '(' → firstVisible? rest = some '(')
    (hs : s.step p rest l = .ok s') :
    ∃ t', t.step q rest' l = .ok t' ∧ Within base stack s' t' ∧
      (GroupWithin base.length s.group t.group → GroupWithin base.length s'.group t'.group) := by
  cases l with
  | word text =>
    have hok : ∃ t', t.step q rest' (.word text) = .ok t' := by
      have hallowed := Scan.exists_step_word.mp ⟨s', hs⟩
      refine Scan.exists_step_word.mpr ?_
      rw [h.afterDot hbase]
      exact hallowed.imp_right (And.imp_right fun hnot hrequire =>
        hnot ⟨hrequire.1, paren hrequire.2⟩)
    obtain ⟨t', ht⟩ := hok
    refine ⟨t', ht, ?_⟩
    rw [Scan.step_word_eq hs, Scan.step_word_eq ht]
    simp only [h.afterDot hbase, ne_eq, colon]
    exact ⟨h.copy hbase _ _, id⟩
  | opening b =>
    cases hs
    exact ⟨_, rfl, h.openBracket b, id⟩
  | closing c =>
    obtain ⟨b, rest, hb, hc, rfl⟩ := Scan.step_closing.mp hs
    obtain ⟨inner, hinner, hlifted⟩ := h.stack
    rw [hb] at hlifted
    cases hlifted with
    | @cons _ b' _ inner hb' hrest =>
      refine ⟨_, Scan.step_closing.mpr ⟨b', inner ++ stack, hinner, by rw [hb'.bracket, hc], rfl⟩,
        ⟨?_, ⟨inner, rfl, hrest⟩, h.pending⟩, fun hgroup => ?_⟩
      · simp [h.out]
      · dsimp only
        split
        · refine ⟨?_, fun hnone => by cases hnone⟩
          rintro _ ⟨⟩
          simp [hb'.written, h.out]
          omega
        · exact hgroup
  | arrow => exact absurd rfl hl
  | _ =>
    cases hs
    exact ⟨_, rfl, h.write _, id⟩

/-- **The pass over a text inside of another one is the pass over the text alone.** -/
theorem feed {tail tail' : List Char} {ls : List Lexeme} (h : Within base stack s t)
    (hbase : Stops base)
    (hstack : (stack.head?.map OpenBracket.isSwitchBody).getD false = false)
    (hgroup : GroupWithin base.length s.group t.group)
    (colon : firstVisible? tail' = some ':' ↔ firstVisible? tail = some ':')
    (paren : firstVisible? tail' = some '(' → firstVisible? tail = some '(')
    (hs : s.feed p tail ls = .ok s') : ∃ t', t.feed q tail' ls = .ok t' ∧ Within base stack s' t' := by
  -- the group goes beside the relation of the states, for nothing but an arrow looks at it
  induction ls generalizing s t p q with
  | nil =>
    cases hs
    exact ⟨t, rfl, h⟩
  | cons l ls ih =>
    obtain ⟨m, hstep, hfeed⟩ := Scan.feed_cons_eq_ok.mp hs
    obtain ⟨m', hstep', hm, hgroup'⟩ : ∃ m', t.step q (sources ls ++ tail') l = .ok m' ∧
        Within base stack m m' ∧ GroupWithin base.length m.group m'.group := by
      by_cases hl : l = .arrow
      · subst hl
        cases hstep
        exact ⟨t.arrow, rfl, h.arrow hbase hstack hgroup⟩
      · obtain ⟨m', hstep', hm, hkeep⟩ := h.step hbase hl
          ⟨firstVisible?_tail _ colon.mp, firstVisible?_tail _ colon.mpr⟩
          (firstVisible?_tail _ paren) hstep
        exact ⟨m', hstep', hm, hkeep hgroup⟩
    obtain ⟨t', hfeed', ht'⟩ := ih hm hgroup' hfeed
    exact ⟨t', Scan.feed_cons_eq_ok.mpr ⟨m', hstep', hfeed'⟩, ht'⟩

end Within

end PackHost.Source
