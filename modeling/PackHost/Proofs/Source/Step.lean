import PackHost.Proofs.Source.Nesting

/-!
# One step of the pass

What a lexeme can do to the state of the pass, in one lemma for each kind: a lexeme that is written
on its own (`step_leaf`), brackets (`step_opening`, `step_closing`) and the arrow (`step_arrow`).
-/

namespace PackHost.Source

/-- How a lexeme is written where it is no part of an arrow function. -/
inductive Copied : Lexeme → List Char → Prop
  | lineComment (text : List Char) : Copied (.lineComment text) text
  | blockComment (text : List Char) : Copied (.blockComment text) text
  | literal (quote : Char) (items : List Item) :
      Copied (.literal quote items) (writeLiteral quote items)
  | opening (bracket : Char) : Copied (.opening bracket) [bracket]
  | closing (bracket : Char) : Copied (.closing bracket) [bracket]
  | tripleEqual : Copied .tripleEqual ['=', '=']
  | notDoubleEqual : Copied .notDoubleEqual ['!', '=']
  | arrow : Copied .arrow ['=', '>']
  | word (text : List Char) : Copied (.word text) text
  | var : Copied (.word "var".toList) "let".toList
  | digits (text : List Char) : Copied (.digits text) text
  | other (c : Char) : Copied (.other c) [c]

theorem writeLiteral_ne_nil (quote : Char) (items : List Item) : writeLiteral quote items ≠ [] := by
  unfold writeLiteral
  split <;> simp [Lexeme.source]

theorem Copied.ne_nil {l : Lexeme} {t : List Char} (h : Copied l t) (hl : l.source ≠ []) :
    t ≠ [] := by
  cases h with
  | literal quote items => exact writeLiteral_ne_nil quote items
  | lineComment => exact hl
  | blockComment => exact hl
  | word => exact hl
  | digits => exact hl
  | _ => simp

/-- A text that is copied ends like the lexeme, for every class that does not tell quotes from
quotes and `t` from `r`. -/
theorem Copied.getLast?_map {l : Lexeme} {t : List Char} {Q : Char → Bool} (quotes : Q '"' = Q '\'')
    (letter : Q 't' = Q 'r') (h : Copied l t) : t.getLast?.map Q = l.source.getLast?.map Q := by
  cases h with
  | literal quote items =>
    have hlast : (Lexeme.literal quote items).source.getLast? = some quote := List.getLast?_concat
    rw [hlast]
    unfold writeLiteral
    split
    · next hsingle =>
      obtain ⟨rfl, -⟩ := hsingle
      rw [List.getLast?_concat]
      exact congrArg some quotes
    · rw [hlast]
  | var => exact congrArg some letter
  | _ => rfl

namespace Scan

variable {s s' : Scan} {p : Position} {rest : List Char}

/-! ## Lexemes that are written on their own -/

def isSwitch (l : Lexeme) : Bool := l == .word "switch".toList

/-- The state after a lexeme that is written as the given text. -/
def copy (s : Scan) (l : Lexeme) (text : List Char) : Scan :=
  { s with
    out := text.reverse ++ s.out
    switchPending := s.switchPending || (isSwitch l && !s.afterDot) }

theorem copy_eq_write {l : Lexeme} (h : isSwitch l = false) (text : List Char) :
    s.copy l text = s.write text := by
  simp [write, copy, h]

theorem step_word_eq {text : List Char} (h : s.step p rest (.word text) = .ok s') :
    s' = s.copy (.word text)
      (if text = "var".toList ∧ s.afterDot = false ∧ firstVisible? rest ≠ some ':' then "let".toList
        else text) := by
  have hplain : text ≠ "switch".toList ∨ s.afterDot = true →
      s.write text = s.copy (.word text) text := by
    rintro (hne | hdot)
    · exact (copy_eq_write (by simpa [isSwitch] using hne) text).symm
    · simp [write, copy, hdot]
  simp only [step, word] at h
  split at h
  · next hdot =>
    cases h
    rw [if_neg (by simp [hdot]), hplain (.inr hdot)]
  · next hdot =>
    have hdot' : s.afterDot = false := by simpa using hdot
    split at h
    · next hvar =>
      cases h
      obtain ⟨rfl, hcolon⟩ := hvar
      rw [if_pos ⟨rfl, hdot', hcolon⟩, copy_eq_write rfl]
    · next hvar =>
      rw [if_neg fun hlet => hvar ⟨hlet.1, hlet.2.2⟩]
      split at h
      · cases h
      · split at h
        · cases h
        · split at h
          · next hswitch =>
            cases h
            simp [write, copy, isSwitch, hswitch, hdot]
          · next hswitch =>
            cases h
            exact hplain (.inl hswitch)

theorem step_word {text : List Char} (h : s.step p rest (.word text) = .ok s') :
    ∃ t, Copied (.word text) t ∧ s' = s.copy (.word text) t := by
  refine ⟨_, ?_, step_word_eq h⟩
  split
  · next hvar =>
    obtain ⟨rfl, -⟩ := hvar
    exact .var
  · exact .word text

theorem step_leaf {l : Lexeme} (hb : l.isBracket = false) (ha : l ≠ .arrow)
    (h : s.step p rest l = .ok s') : ∃ t, Copied l t ∧ s' = s.copy l t := by
  have hwrite : ∀ t, isSwitch l = false → s.write t = s.copy l t :=
    fun t hl => (copy_eq_write hl t).symm
  cases l with
  | lineComment text => cases h; exact ⟨_, .lineComment text, hwrite _ rfl⟩
  | blockComment text => cases h; exact ⟨_, .blockComment text, hwrite _ rfl⟩
  | literal quote items => cases h; exact ⟨_, .literal quote items, hwrite _ rfl⟩
  | opening => cases hb
  | closing => cases hb
  | tripleEqual => cases h; exact ⟨_, .tripleEqual, hwrite _ rfl⟩
  | notDoubleEqual => cases h; exact ⟨_, .notDoubleEqual, hwrite _ rfl⟩
  | arrow => exact absurd rfl ha
  | word text => exact step_word h
  | digits text => cases h; exact ⟨_, .digits text, hwrite _ rfl⟩
  | other c => cases h; exact ⟨_, .other c, hwrite _ rfl⟩

/-- Only words can be refused among the lexemes that are no brackets: `import`, and `require` in
front of a parenthesis, where they name no member. -/
theorem exists_step_word {text : List Char} :
    (∃ s', s.step p rest (.word text) = .ok s') ↔
      s.afterDot = true ∨ text ≠ "import".toList ∧
        ¬ (text = "require".toList ∧ firstVisible? rest = some '(') := by
  simp only [step, word]
  split
  · next hdot => simp [hdot]
  · next hdot =>
    split
    · next hvar =>
      obtain ⟨rfl, -⟩ := hvar
      simp
    · split
      · next himport => simp [hdot, himport]
      · next himport =>
        split
        · next hrequire => simp [hdot, hrequire]
        · next hrequire => split <;> exact ⟨fun _ => .inr ⟨himport, hrequire⟩, fun _ => ⟨_, rfl⟩⟩

theorem exists_step_leaf {l : Lexeme} (hb : l.isBracket = false) (hw : ∀ text, l ≠ .word text) :
    ∃ s', s.step p rest l = .ok s' := by
  cases l with
  | opening => cases hb
  | closing => cases hb
  | word text => exact absurd rfl (hw text)
  | _ => exact ⟨_, rfl⟩

/-! ## Brackets -/

theorem step_opening (s : Scan) (p : Position) (rest : List Char) (bracket : Char) :
    s.step p rest (.opening bracket) = .ok (s.openBracket p bracket) :=
  rfl

theorem step_closing {c : Char} :
    s.step p rest (.closing c) = .ok s' ↔
      ∃ b stack, s.stack = b :: stack ∧ c = closingOf b.bracket ∧
        s' = { s with
          out := c :: s.out
          stack
          group := if c = ')' then some ⟨b.written, (c :: s.out).length⟩ else s.group } := by
  simp only [step, closeBracket]
  cases hstack : s.stack with
  | nil => simp
  | cons b stack =>
    simp only [List.cons.injEq]
    split
    · next hc =>
      constructor
      · intro h
        cases h
        exact ⟨b, stack, ⟨rfl, rfl⟩, hc, rfl⟩
      · rintro ⟨_, _, ⟨rfl, rfl⟩, -, rfl⟩
        rfl
    · next hc =>
      constructor
      · intro h
        cases h
      · rintro ⟨_, _, ⟨rfl, rfl⟩, hc', -⟩
        exact absurd hc' hc

/-! ## The arrow -/

/-- Whether the innermost open bracket is marked as the body of a `switch`. -/
def inSwitch (s : Scan) : Bool := (s.stack.head?.map OpenBracket.isSwitchBody).getD false

theorem closureParams?_eq_some {out written : List Char} {group : Option Group}
    (h : closureParams? out group = some written) :
    ∃ params before, written = barred params before := by
  have hgroup : ∀ {trimmed w : List Char} {g : Group}, closureOfGroup? trimmed g = some w →
      ∃ params before, w = barred params before := by
    intro trimmed w g hw
    unfold closureOfGroup? at hw
    split at hw
    · dsimp only at hw
      split at hw
      · cases hw
        exact ⟨_, _, rfl⟩
      · cases hw
    · cases hw
  have hword : ∀ {trimmed w : List Char}, closureOfWord? trimmed = some w →
      ∃ params before, w = barred params before := by
    intro trimmed w hw
    unfold closureOfWord? at hw
    dsimp only at hw
    split at hw
    · cases hw
    · split at hw
      · cases hw
        exact ⟨_, _, rfl⟩
      · cases hw
  unfold closureParams? at h
  dsimp only at h
  split at h
  · next hg =>
    cases h
    obtain ⟨g, -, hg⟩ := Option.bind_eq_some_iff.mp hg
    exact hgroup hg
  · exact hword h

theorem step_arrow : s.step p rest .arrow = .ok s.arrow := rfl

theorem arrow_inSwitch (h : s.inSwitch = true) : s.arrow = s.write ['=', '>'] := by
  unfold inSwitch at h
  simp [arrow, h]

theorem arrow_closure {out : List Char} (h : s.inSwitch = false)
    (hout : closureParams? s.out s.group = some out) :
    s.arrow = { s with out, group := none } := by
  unfold inSwitch at h
  simp [arrow, h, hout]

theorem arrow_alone (h : s.inSwitch = false) (hout : closureParams? s.out s.group = none) :
    s.arrow = { s with out := '>' :: '=' :: s.out, group := none } := by
  unfold inSwitch at h
  simp [arrow, h, hout, write]

theorem arrow_rest :
    s.arrow.stack = s.stack ∧ s.arrow.switchPending = s.switchPending ∧
      (s.arrow.group = none ∨ s.arrow.group = s.group ∧ s.arrow.out = '>' :: '=' :: s.out) := by
  cases h : s.inSwitch with
  | true =>
    rw [arrow_inSwitch h]
    exact ⟨rfl, rfl, .inr ⟨rfl, rfl⟩⟩
  | false =>
    cases hout : closureParams? s.out s.group with
    | none =>
      rw [arrow_alone h hout]
      exact ⟨rfl, rfl, .inl rfl⟩
    | some out =>
      rw [arrow_closure h hout]
      exact ⟨rfl, rfl, .inl rfl⟩

theorem stack_step {l : Lexeme} (hl : l.isBracket = false) (h : s.step p rest l = .ok s') :
    s'.stack = s.stack := by
  by_cases ha : l = .arrow
  · subst ha
    cases h
    exact s.arrow_rest.1
  · obtain ⟨t, -, rfl⟩ := step_leaf hl ha h
    rfl

/-! ## The last character -/

/-- The last character that is written for a lexeme is as good as its own last character, for every
class that does not tell bars from angles, quotes from quotes and `t` from `r`. -/
theorem head_step {l : Lexeme} {Q : Char → Bool} (bar : Q '|' = Q '>') (quotes : Q '"' = Q '\'')
    (letter : Q 't' = Q 'r') (hl : l.source ≠ []) (h : s.step p rest l = .ok s') :
    s'.out.head?.map Q = l.source.getLast?.map Q := by
  by_cases hb : l.isBracket = false
  · by_cases ha : l = .arrow
    · subst ha
      cases h
      rcases hs : s.inSwitch with _ | _
      · cases hout : closureParams? s.out s.group with
        | none => rw [arrow_alone hs hout]; rfl
        | some out =>
          obtain ⟨params, before, rfl⟩ := closureParams?_eq_some hout
          rw [arrow_closure hs hout]
          exact congrArg some bar
      · rw [arrow_inSwitch hs]
        rfl
    · obtain ⟨t, ht, rfl⟩ := step_leaf hb ha h
      have hhead : (t.reverse ++ s.out).head? = t.getLast? := by
        rw [List.head?_append, List.head?_reverse,
          List.getLast?_eq_some_getLast (ht.ne_nil hl)]
        rfl
      rw [← ht.getLast?_map quotes letter, ← hhead]
      rfl
  · cases l with
    | opening b => cases h; rfl
    | closing c =>
      obtain ⟨b, stack, -, -, rfl⟩ := step_closing.mp h
      rfl
    | _ => exact absurd rfl hb

end Scan

end PackHost.Source
