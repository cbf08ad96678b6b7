import Mathlib.Data.List.Forall2
import PackHost.Proofs.Source.Arrow

/-!
# What may be written for a lexeme

* `Rendered`: a lexeme is copied, or it has a part in an arrow function: the parentheses of a
  parameter list, the name of a parameter, the arrow, and blanks around them;
* `Woven`: texts that are written for lexemes one after another, none of which runs into the next
  one.
-/

namespace PackHost.Source

/-- What may be written for a lexeme, where arrows take no other blanks away than the given ones. -/
inductive Rendered (lost : Char → Prop) : Lexeme → List Char → Prop
  | copied {l : Lexeme} {t : List Char} : Copied l t → Rendered lost l t
  | opened : Rendered lost (.opening '(') ['|']
  | closed : Rendered lost (.closing ')') []
  | parameter {text t : List Char} : Copied (.word text) t → Rendered lost (.word text) ('|' :: t)
  | arrow : Rendered lost .arrow ['|']
  | blank {c : Char} : Text.isBlank c = true → lost c → Rendered lost (.other c) []

/-- The lexeme is still read on its own if the given character follows. -/
def Safe (next : Option Char) : Lexeme → Prop
  | .lineComment _ => ∀ c ∈ next, c = '\n'
  | .other c => c = '/' → next ≠ some '/' ∧ next ≠ some '*'
  | _ => True

/-- Texts for lexemes, in front of `next`. -/
inductive Woven (lost : Char → Prop) (next : List Char) : List Lexeme → List (List Char) → Prop
  | nil : Woven lost next [] []
  | cons {l : Lexeme} {t : List Char} {ls : List Lexeme} {ts : List (List Char)} :
      Rendered lost l t → Safe (ts.flatten ++ next).head? l → Woven lost next ls ts →
      Woven lost next (l :: ls) (t :: ts)

theorem Lexeme.Stands.safe {l : Lexeme} {rest : List Char} (h : l.Stands rest) :
    Safe rest.head? l := by
  cases l with
  | lineComment text => exact h.2.2
  | other c => exact h.2.1
  | _ => trivial

/-- Nothing is at risk behind a lexeme that is no line comment if a bar follows. -/
theorem safe_bar {l : Lexeme} (h : l.isLineComment = false) : Safe (some '|') l := by
  cases l with
  | lineComment => cases h
  | other c => exact fun _ => ⟨by decide, by decide⟩
  | _ => trivial

theorem not_isLineComment_of_safe {l : Lexeme} {c : Char} (h : Safe (some c) l) (hc : c ≠ '\n') :
    l.isLineComment = false := by
  cases l with
  | lineComment => exact absurd (h c rfl) hc
  | _ => rfl

/-- What is copied may follow where the lexeme may. -/
theorem Safe.copied {l m : Lexeme} {t rest rest' : List Char} (hm : m.Stands rest)
    (ht : Copied m t) (h : Safe (m.source ++ rest).head? l) : Safe (t ++ rest').head? l := by
  have hother : ∀ c d : Char, c ≠ '\n' → d ≠ '/' ∧ d ≠ '*' → Safe (some c) l → Safe (some d) l := by
    intro c d hc hd hs
    cases l with
    | lineComment => exact absurd (hs c rfl) hc
    | other e => exact fun _ => ⟨by simpa using hd.1, by simpa using hd.2⟩
    | _ => trivial
  have hsame : ∀ text : List Char, text ≠ [] → Safe (text ++ rest).head? l →
      Safe (text ++ rest').head? l := by
    intro text hne hs
    obtain ⟨c, text, rfl⟩ := List.exists_cons_of_ne_nil hne
    exact hs
  have hne := hm.source_ne_nil
  cases ht with
  | lineComment text => exact hsame _ hne h
  | blockComment text => exact hsame _ hne h
  | literal quote items =>
    unfold writeLiteral
    split
    · next hsingle =>
      obtain ⟨rfl, -⟩ := hsingle
      exact hother '\'' '"' (by decide) (by decide) h
    · exact hsame _ hne h
  | tripleEqual => exact h
  | notDoubleEqual => exact h
  | var => exact hother 'v' 'l' (by decide) (by decide) h
  | _ => exact hsame _ hne h

namespace Woven

variable {lost : Char → Prop} {next : List Char} {ls ms : List Lexeme} {ts us : List (List Char)}

theorem append (h : Woven lost (us.flatten ++ next) ls ts) (hm : Woven lost next ms us) :
    Woven lost next (ls ++ ms) (ts ++ us) := by
  induction h with
  | nil => exact hm
  | @cons l t ls ts hr hs _ ih =>
    have hs' : Safe ((ts ++ us).flatten ++ next).head? l := by
      rwa [List.flatten_append, List.append_assoc]
    exact .cons hr hs' ih

theorem singleton {l : Lexeme} {t : List Char} (hr : Rendered lost l t) (hs : Safe next.head? l) :
    Woven lost next [l] [t] :=
  .cons hr hs .nil

theorem forall₂ (h : Woven lost next ls ts) : List.Forall₂ (Rendered lost) ls ts := by
  induction h with
  | nil => exact .nil
  | cons hr _ _ ih => exact .cons hr ih

theorem blanks {bs : List Lexeme} (hb : Blanks bs) (hl : ∀ c, .other c ∈ bs → lost c) :
    Woven lost next bs (bs.map fun _ => []) := by
  induction bs with
  | nil => exact .nil
  | cons l bs ih =>
    obtain ⟨hblank, hbs⟩ := List.forall_mem_cons.mp hb
    cases l with
    | other c =>
      refine .cons (.blank hblank (hl c List.mem_cons_self)) ?_
        (ih hbs fun d hd => hl d (List.mem_cons_of_mem _ hd))
      rintro rfl
      exact absurd hblank (by decide)
    | _ => cases hblank

/-- The last lexeme alone meets what follows, if something was written for it. -/
theorem change {next' : List Char} (h : Woven lost next ls ts) (ht : ∀ t ∈ ts.getLast?, t ≠ [])
    (hs : ∀ l ∈ ls.getLast?, Safe next.head? l → Safe next'.head? l) : Woven lost next' ls ts := by
  induction h with
  | nil => exact .nil
  | @cons l t ls ts hr hsafe hw ih =>
    cases hw with
    | nil => exact .cons hr (hs l rfl hsafe) .nil
    | @cons l' t' ls ts hr' hsafe' hw =>
      have hrest := ih (by simpa using ht) (by simpa using hs)
      refine .cons hr ?_ hrest
      have hne : (t' :: ts).flatten ≠ [] := by
        intro hnil
        have hmem := List.mem_of_getLast? (List.getLast?_eq_some_getLast (List.cons_ne_nil t' ts))
        exact ht _ (by simpa using List.getLast?_eq_some_getLast (List.cons_ne_nil t' ts))
          (List.flatten_eq_nil_iff.mp hnil _ hmem)
      obtain ⟨c, text, htext⟩ := List.exists_cons_of_ne_nil hne
      rw [htext] at hsafe ⊢
      exact hsafe

end Woven

/-- What is copied for a visible lexeme starts with a visible character. -/
theorem Copied.visible {l : Lexeme} {t rest : List Char} (h : Copied l t) (hl : l.Stands rest)
    (hb : l.isBlank = false) : ∀ c ∈ t.head?, Text.isBlank c = false := by
  intro d hd
  cases h with
  | lineComment =>
    obtain ⟨⟨body, rfl⟩, -⟩ := hl
    cases hd
    decide
  | blockComment =>
    obtain ⟨body, rfl, -⟩ := hl
    cases hd
    decide
  | literal quote items =>
    unfold writeLiteral at hd
    split at hd
    · cases hd
      decide
    · cases hd
      rcases eq_of_isQuote hl.1 with rfl | rfl | rfl <;> decide
  | opening b =>
    cases hd
    rcases eq_of_isOpening hl with rfl | rfl | rfl <;> decide
  | closing b =>
    cases hd
    rcases eq_of_isClosing hl with rfl | rfl | rfl <;> decide
  | tripleEqual => cases hd; decide
  | notDoubleEqual => cases hd; decide
  | arrow => cases hd; decide
  | word =>
    obtain ⟨⟨c, cs, rfl, hc⟩, -, -⟩ := hl
    cases hd
    exact not_isBlank_of_isWordPart (isWordPart_of_isWordStart hc)
  | var => cases hd; decide
  | digits =>
    obtain ⟨⟨c, cs, rfl, hc, -⟩, -, -⟩ := hl
    cases hd
    exact not_isBlank_of_isWordPart (isWordPart_of_isDigit hc)
  | other c =>
    cases hd
    exact hb

/-- What is written for visible lexemes that do not start with a closing bracket starts with a
visible character. -/
theorem Woven.head_visible {lost : Char → Prop} {next : List Char} {ls : List Lexeme}
    {ts : List (List Char)} {rest : List Lexeme} (h : Woven lost next ls ts)
    (hl : InPlace (ls ++ rest))
    (hb : ∀ l ∈ ls.head?, l.isBlank = false ∧ l ≠ .closing ')') :
    ∀ c ∈ ts.flatten.head?, Text.isBlank c = false := by
  cases h with
  | nil => exact fun c hc => by cases hc
  | @cons l t ls ts hr _ _ =>
    obtain ⟨hblank, hclosing⟩ := hb l rfl
    intro c hc
    cases hr with
    | copied hcopied =>
      have hne := hcopied.ne_nil hl.1.source_ne_nil
      obtain ⟨d, cs, rfl⟩ := List.exists_cons_of_ne_nil hne
      cases hc
      exact hcopied.visible hl.1 hblank c rfl
    | opened => cases hc; decide
    | closed => exact absurd rfl hclosing
    | parameter => cases hc; decide
    | arrow => cases hc; decide
    | blank hblank' => exact absurd (hblank'.symm.trans hblank) (by decide)

/-- A parameter list and its arrow, and what is written for them. -/
theorem Woven.group {lost : Char → Prop} {next : List Char} {b₁ core b₂ bs : List Lexeme}
    {cs : List (List Char)} (h : Woven lost ('|' :: next) core cs) (hb₁ : Blanks b₁)
    (hb₂ : Blanks b₂) (hb : Blanks bs) (hlost : ∀ c, .other c ∈ b₁ ++ b₂ ++ bs → lost c) :
    Woven lost next (.opening '(' :: (b₁ ++ core ++ b₂ ++ .closing ')' :: bs ++ [.arrow]))
      (['|'] :: ((b₁.map fun _ => []) ++ cs ++ (b₂.map fun _ => []) ++ [] :: (bs.map fun _ => [])) ++
        [['|']]) := by
  have hdropped : ∀ ms : List Lexeme, Blanks ms → (∀ l ∈ ms, l ∈ b₁ ++ b₂ ++ bs) →
      ∀ rest, Woven lost rest ms (ms.map fun _ => []) := fun ms hms hin rest =>
    .blanks hms fun c hc => hlost c (hin _ hc)
  have harrow : Woven lost next [.arrow] [['|']] := .singleton .arrow trivial
  have hclose : Woven lost next (.closing ')' :: bs ++ [.arrow])
      ([] :: (bs.map fun _ => []) ++ [['|']]) := by
    refine .cons .closed trivial (.append (hdropped bs hb ?_ _) harrow)
    exact fun l hl => List.mem_append_right _ hl
  have hend : Woven lost next (b₂ ++ (.closing ')' :: bs ++ [.arrow]))
      ((b₂.map fun _ => []) ++ ([] :: (bs.map fun _ => []) ++ [['|']])) := by
    refine .append (hdropped b₂ hb₂ ?_ _) hclose
    exact fun l hl => List.mem_append_left _ (List.mem_append_right _ hl)
  have hcore : Woven lost next (core ++ (b₂ ++ (.closing ')' :: bs ++ [.arrow])))
      (cs ++ ((b₂.map fun _ => []) ++ ([] :: (bs.map fun _ => []) ++ [['|']]))) := by
    refine .append ?_ hend
    simpa using h
  have hall := Woven.append (hdropped b₁ hb₁ (fun l hl =>
    List.mem_append_left _ (List.mem_append_left _ hl)) _) hcore
  simpa using Woven.cons .opened trivial hall

end PackHost.Source
