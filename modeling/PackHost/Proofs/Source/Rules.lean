import Mathlib.Data.List.TakeWhile
import PackHost.Source.Lexeme

/-!
# The lexical rules without a reader

`Lexeme.Stands` says which lexemes there are and what may follow each of them. The reader follows
these rules and no others: `read?_eq_lexeme_iff`.
-/

namespace PackHost.Source

/-! ## Classes of characters -/

theorem eq_of_isQuote {c : Char} (h : isQuote c) : c = '"' ∨ c = '\'' ∨ c = '`' := by
  simpa [isQuote, or_assoc] using h

theorem eq_of_isOpening {c : Char} (h : isOpening c) : c = '(' ∨ c = '[' ∨ c = '{' := by
  simpa [isOpening, or_assoc] using h

theorem eq_of_isClosing {c : Char} (h : isClosing c) : c = ')' ∨ c = ']' ∨ c = '}' := by
  simpa [isClosing, or_assoc] using h

theorem isWordPart_of_isWordStart {c : Char} (h : isWordStart c) : isWordPart c := by
  simp only [isWordStart, isWordPart, Text.isAlphanumeric, Bool.or_eq_true] at h ⊢
  rcases h with h | h
  · exact .inl (.inl h)
  · exact .inr h

theorem isWordPart_of_isDigit {c : Char} (h : c.isDigit) : isWordPart c := by
  have hle : c.toNat < 128 :=
    Nat.lt_of_le_of_lt (Char.isDigit_iff_toNat.mp h).2 (by decide)
  simp [isWordPart, Text.isAlphanumeric, Text.isNumeric, hle, h]

theorem class_of_isWordPart {c : Char} (h : isWordPart c) :
    isQuote c = false ∧ isOpening c = false ∧ isClosing c = false := by
  refine ⟨?_, ?_, ?_⟩ <;> rw [Bool.eq_false_iff] <;> intro hcon
  · rcases eq_of_isQuote hcon with rfl | rfl | rfl <;> exact absurd h (by decide)
  · rcases eq_of_isOpening hcon with rfl | rfl | rfl <;> exact absurd h (by decide)
  · rcases eq_of_isClosing hcon with rfl | rfl | rfl <;> exact absurd h (by decide)

def blankCodes : List Nat :=
  [9, 10, 11, 12, 13, 32, 0x85, 0xA0, 0x1680, 0x2000, 0x2001, 0x2002, 0x2003, 0x2004, 0x2005,
    0x2006, 0x2007, 0x2008, 0x2009, 0x200A, 0x2028, 0x2029, 0x202F, 0x205F, 0x3000]

theorem mem_blankCodes {c : Char} (h : Text.isBlank c = true) : c.toNat ∈ blankCodes := by
  simp [Text.isBlank] at h
  simp [blankCodes]
  omega

theorem not_isWordPart_of_isBlank {c : Char} (h : Text.isBlank c = true) :
    isWordPart c = false := by
  have hall : ∀ n ∈ blankCodes, isWordPart (Char.ofNat n) = false := by decide +kernel
  have hc := hall _ (mem_blankCodes h)
  rwa [Char.ofNat_toNat] at hc

theorem not_isBlank_of_isWordPart {c : Char} (h : isWordPart c = true) :
    Text.isBlank c = false := by
  by_contra hblank
  rw [not_isWordPart_of_isBlank (by simpa using hblank)] at h
  cases h

/-! ## Literals -/

theorem takeHexDigits_append {n : Nat} {digits rest : List Char}
    (hex : ∀ d ∈ digits, Text.isHexDigit d) (few : digits.length ≤ n)
    (all : digits.length < n → ∀ d ∈ rest.head?, Text.isHexDigit d = false) :
    takeHexDigits n (digits ++ rest) = digits ∧ dropHexDigits n (digits ++ rest) = rest := by
  induction n generalizing digits with
  | zero =>
    obtain rfl := List.length_eq_zero_iff.mp (Nat.le_zero.mp few)
    simp [takeHexDigits, dropHexDigits]
  | succ n ih =>
    cases digits with
    | nil =>
      cases rest with
      | nil => simp [takeHexDigits, dropHexDigits]
      | cons c cs =>
        have hc : Text.isHexDigit c = false := all (Nat.succ_pos n) c rfl
        simp [takeHexDigits, dropHexDigits, hc]
    | cons d digits =>
      obtain ⟨hd, hds⟩ := List.forall_mem_cons.mp hex
      have hrec := ih hds (Nat.le_of_succ_le_succ few)
        fun hlt => all (Nat.succ_lt_succ hlt)
      simp [takeHexDigits, dropHexDigits, hd, hrec]

theorem isHexDigit_of_mem_takeHexDigits {n : Nat} {cs : List Char} {d : Char}
    (h : d ∈ takeHexDigits n cs) : Text.isHexDigit d := by
  induction n generalizing cs with
  | zero => simp [takeHexDigits] at h
  | succ n ih =>
    cases cs with
    | nil => simp [takeHexDigits] at h
    | cons c cs =>
      unfold takeHexDigits at h
      split at h
      · rcases List.mem_cons.mp h with rfl | h
        · assumption
        · exact ih h
      · cases h

theorem length_takeHexDigits_le (n : Nat) (cs : List Char) : (takeHexDigits n cs).length ≤ n := by
  induction n generalizing cs with
  | zero => simp [takeHexDigits]
  | succ n ih =>
    cases cs with
    | nil => simp [takeHexDigits]
    | cons c cs =>
      unfold takeHexDigits
      split
      · exact Nat.succ_le_succ (ih cs)
      · exact Nat.zero_le _

theorem not_isHexDigit_head_dropHexDigits {n : Nat} {cs : List Char}
    (h : (takeHexDigits n cs).length < n) :
    ∀ d ∈ (dropHexDigits n cs).head?, Text.isHexDigit d = false := by
  induction n generalizing cs with
  | zero => simp at h
  | succ n ih =>
    cases cs with
    | nil => simp [dropHexDigits]
    | cons c cs =>
      by_cases hc : Text.isHexDigit c
      · simp only [takeHexDigits, dropHexDigits, hc, if_true, List.length_cons] at h ⊢
        exact ih (Nat.lt_of_succ_lt_succ h)
      · simp [dropHexDigits, hc]

/-- The items between two of the given quotes: a quote or a backslash stands only behind a
backslash, a newline also between back quotes, and an escape has all the digits it can take. -/
def AreItems (quote : Char) : List Item → Prop
  | [] => True
  | .plain c :: items =>
    c ≠ quote ∧ c ≠ '\\' ∧ (c = '\n' → quote = '`') ∧ AreItems quote items
  | .escape e digits :: items =>
    (∀ d ∈ digits, Text.isHexDigit d) ∧ digits.length ≤ escapeWidth e ∧
      (digits.length < escapeWidth e →
        ∀ d ∈ (items.flatMap Item.raw).head?, Text.isHexDigit d = false) ∧
      AreItems quote items

/-- What may follow an escape that has less digits than it can take. -/
theorem head_items_append {quote : Char} (hq : isQuote quote) {items : List Item}
    (rest : List Char) :
    (∀ d ∈ (items.flatMap Item.raw ++ quote :: rest).head?, Text.isHexDigit d = false) ↔
      ∀ d ∈ (items.flatMap Item.raw).head?, Text.isHexDigit d = false := by
  have hquote : Text.isHexDigit quote = false := by
    rcases eq_of_isQuote hq with rfl | rfl | rfl <;> decide
  cases items.flatMap Item.raw with
  | nil => simp [hquote]
  | cons c cs => simp

theorem readItems?_escape {quote e : Char} {cs : List Char} :
    readItems? quote ('\\' :: e :: cs) =
      (readItems? quote (dropHexDigits (escapeWidth e) cs)).map fun r =>
        (.escape e (takeHexDigits (escapeWidth e) cs) :: r.1, r.2) := by
  rw [readItems?]

theorem readItems?_cons {quote c : Char} {cs : List Char} (h : c ≠ '\\') :
    readItems? quote (c :: cs) =
      if c = '\n' ∧ quote ≠ '`' then none
      else if c = quote then some ([], cs)
      else (readItems? quote cs).map fun r => (.plain c :: r.1, r.2) := by
  rw [readItems?]
  · intro h'
    exact absurd h' h
  · intro e cs' h'
    exact absurd h' h

theorem areItems_of_readItems? {quote : Char} {cs rest : List Char} {items : List Item}
    (hq : isQuote quote) (h : readItems? quote cs = some (items, rest)) :
    AreItems quote items := by
  fun_induction readItems? quote cs generalizing items with
  | case1 => simp at h
  | case2 => simp at h
  | case3 e cs ih =>
    obtain ⟨⟨items', rest'⟩, hr, heq⟩ := Option.map_eq_some_iff.1 h
    simp only [Prod.mk.injEq] at heq
    obtain ⟨rfl, rfl⟩ := heq
    refine ⟨fun d hd => isHexDigit_of_mem_takeHexDigits hd, length_takeHexDigits_le _ _,
      fun hlt => ?_, ih hr⟩
    have hstop := not_isHexDigit_head_dropHexDigits hlt
    rw [← append_of_readItems? hr] at hstop
    exact (head_items_append hq _).mp hstop
  | case4 => simp at h
  | case5 => simp_all [AreItems]
  | case6 c cs hlast hback hnewline hquote ih =>
    obtain ⟨⟨items', rest'⟩, hr, heq⟩ := Option.map_eq_some_iff.1 h
    simp only [Prod.mk.injEq] at heq
    obtain ⟨rfl, rfl⟩ := heq
    refine ⟨hquote, ?_, ?_, ih hr⟩
    · rintro rfl
      cases cs with
      | nil => exact hlast rfl rfl
      | cons e cs => exact hback e cs rfl rfl
    · intro hc
      by_contra hne
      exact hnewline ⟨hc, hne⟩

theorem readItems?_append {quote : Char} {items : List Item} (hq : isQuote quote)
    (h : AreItems quote items) (rest : List Char) :
    readItems? quote (items.flatMap Item.raw ++ quote :: rest) = some (items, rest) := by
  induction items with
  | nil =>
    have hback : quote ≠ '\\' := by rcases eq_of_isQuote hq with rfl | rfl | rfl <;> decide
    have hnewline : quote ≠ '\n' := by rcases eq_of_isQuote hq with rfl | rfl | rfl <;> decide
    simp [readItems?_cons hback, hnewline]
  | cons item items ih =>
    cases item with
    | plain c =>
      obtain ⟨hquote, hback, hnewline, hitems⟩ := h
      have hnone : ¬ (c = '\n' ∧ quote ≠ '`') := fun ⟨hc, hne⟩ => hne (hnewline hc)
      simp [Item.raw, readItems?_cons hback, hnone, hquote, ih hitems]
    | escape e digits =>
      obtain ⟨hex, few, all, hitems⟩ := h
      obtain ⟨htake, hdrop⟩ := takeHexDigits_append hex few
        fun hlt => (head_items_append hq rest).mpr (all hlt)
      simp [Item.raw, readItems?_escape, htake, hdrop, ih hitems]

/-! ## Block comments -/

theorem not_infix_of_readComment? {cs text rest : List Char}
    (h : readComment? cs = some (text, rest)) :
    ∃ body, text = body ++ ['*', '/'] ∧ ¬ ['*', '/'] <:+: body ++ ['*'] := by
  fun_induction readComment? cs generalizing text with
  | case1 => simp at h
  | case2 cs =>
    simp only [Option.some.injEq, Prod.mk.injEq] at h
    obtain ⟨rfl, -⟩ := h
    exact ⟨[], rfl, by decide⟩
  | case3 c cs hc ih =>
    obtain ⟨⟨text', rest'⟩, hr, heq⟩ := Option.map_eq_some_iff.1 h
    simp only [Prod.mk.injEq] at heq
    obtain ⟨rfl, rfl⟩ := heq
    obtain ⟨body, rfl, hbody⟩ := ih hr
    refine ⟨c :: body, rfl, fun hin => ?_⟩
    rcases List.infix_cons_iff.mp hin with hpre | hin
    · -- the end would stand right here, and the comment would have been closed by it
      obtain ⟨t, ht⟩ := hpre
      have hcs := append_of_readComment? hr
      cases body with
      | nil => simp at ht
      | cons d body =>
        simp only [List.cons_append, List.cons.injEq] at ht
        obtain ⟨rfl, rfl, -⟩ := ht
        exact hc _ rfl (by rw [← hcs]; rfl)
    · exact hbody hin

theorem readComment?_append {body : List Char} (h : ¬ ['*', '/'] <:+: body ++ ['*'])
    (rest : List Char) :
    readComment? (body ++ ['*', '/'] ++ rest) = some (body ++ ['*', '/'], rest) := by
  induction body with
  | nil => rfl
  | cons c body ih =>
    have hbody : ¬ ['*', '/'] <:+: body ++ ['*'] := fun hin =>
      h (List.infix_cons_iff.mpr (.inr hin))
    rw [List.cons_append, List.cons_append, readComment?, ih hbody]
    · rfl
    · rintro cs rfl hcs
      refine h (List.infix_cons_iff.mpr (.inl ?_))
      cases body with
      | nil => simp at hcs
      | cons d body =>
        simp only [List.cons_append, List.cons.injEq] at hcs
        obtain ⟨rfl, -⟩ := hcs
        exact ⟨body ++ ['*'], rfl⟩

/-! ## Lexemes -/

/-- Which lexemes there are, and in front of which texts each of them may stand. -/
def Lexeme.Stands (rest : List Char) : Lexeme → Prop
  | .lineComment text =>
    (∃ body, text = '/' :: '/' :: body) ∧ '\n' ∉ text ∧ ∀ c ∈ rest.head?, c = '\n'
  | .blockComment text =>
    ∃ body, text = '/' :: '*' :: (body ++ ['*', '/']) ∧ ¬ ['*', '/'] <:+: body ++ ['*']
  | .literal quote items => isQuote quote ∧ AreItems quote items
  | .opening bracket => isOpening bracket
  | .closing bracket => isClosing bracket
  | .tripleEqual => True
  | .notDoubleEqual => True
  | .arrow => True
  | .word text =>
    (∃ c cs, text = c :: cs ∧ isWordStart c) ∧ (∀ c ∈ text, isWordPart c) ∧
      ∀ c ∈ rest.head?, isWordPart c = false
  | .digits text =>
    (∃ c cs, text = c :: cs ∧ c.isDigit ∧ isWordStart c = false) ∧ (∀ c ∈ text, isWordPart c) ∧
      ∀ c ∈ rest.head?, isWordPart c = false
  | .other c =>
    (isQuote c = false ∧ isOpening c = false ∧ isClosing c = false ∧ isWordStart c = false ∧
      c.isDigit = false) ∧
    (c = '/' → rest.head? ≠ some '/' ∧ rest.head? ≠ some '*') ∧
    (c = '=' → rest.head? ≠ some '>' ∧ ¬ ['=', '='] <+: rest) ∧
    (c = '!' → ¬ ['=', '='] <+: rest)

theorem head_dropWhile_false {α : Type} {p : α → Bool} {cs : List α} :
    ∀ c ∈ (cs.dropWhile p).head?, p c = false := by
  intro c hc
  have h := List.head?_dropWhile_not p cs
  rw [Option.mem_def.mp hc] at h
  simpa using h

theorem stands_of_readPlain {c : Char} {cs rest : List Char} {l : Lexeme}
    (slash : c = '/' → cs.head? ≠ some '/' ∧ cs.head? ≠ some '*')
    (equal : c = '=' → cs.head? ≠ some '>' ∧ ¬ ['=', '='] <+: cs)
    (bang : c = '!' → ¬ ['=', '='] <+: cs) (h : readPlain c cs = .lexeme l rest) :
    l.Stands rest := by
  unfold readPlain at h
  split at h
  · next hq =>
    split at h
    · next hr =>
      cases h
      exact ⟨hq, areItems_of_readItems? hq hr⟩
    · cases h
  · next hq =>
    split at h
    · next ho => cases h; exact ho
    · next ho =>
      split at h
      · next hc => cases h; exact hc
      · next hc =>
        split at h
        · next hw =>
          cases h
          refine ⟨⟨c, _, rfl, hw⟩, fun d hd => ?_, head_dropWhile_false⟩
          rcases List.mem_cons.mp hd with rfl | hd
          · exact isWordPart_of_isWordStart hw
          · exact List.mem_takeWhile_imp hd
        · next hw =>
          split at h
          · next hd =>
            cases h
            refine ⟨⟨c, _, rfl, hd, by simpa using hw⟩, fun d hd' => ?_, head_dropWhile_false⟩
            rcases List.mem_cons.mp hd' with rfl | hd'
            · exact isWordPart_of_isDigit hd
            · exact List.mem_takeWhile_imp hd'
          · next hd =>
            cases h
            exact ⟨by simp_all, slash, equal, bang⟩

theorem stands_of_read? {cs rest : List Char} {l : Lexeme}
    (h : read? cs = some (.lexeme l rest)) : l.Stands rest := by
  unfold read? at h
  split at h
  · cases h
  · next cs =>
    cases h
    refine ⟨⟨_, rfl⟩, fun hin => ?_, fun c hc => ?_⟩
    · have hmem : '\n' ∈ cs.takeWhile (· ≠ '\n') := by simpa using hin
      simpa using List.mem_takeWhile_imp hmem
    · simpa using head_dropWhile_false c hc
  · split at h
    · next hr =>
      cases h
      obtain ⟨body, rfl, hbody⟩ := not_infix_of_readComment? hr
      exact ⟨body, rfl, hbody⟩
    · cases h
  · cases h; trivial
  · cases h; trivial
  · cases h; trivial
  · next c cs hline hblock hthree hbang harrow =>
    simp only [Option.some.injEq] at h
    refine stands_of_readPlain ?_ ?_ ?_ h
    · rintro rfl
      cases cs with
      | nil => simp
      | cons d cs =>
        constructor
        · rintro hd
          exact hline cs rfl (by simpa using hd)
        · rintro hd
          exact hblock cs rfl (by simpa using hd)
    · rintro rfl
      constructor
      · intro hd
        cases cs with
        | nil => simp at hd
        | cons d cs => exact harrow cs rfl (by simpa using hd)
      · rintro ⟨t, rfl⟩
        exact hthree t rfl rfl
    · rintro rfl ⟨t, rfl⟩
      exact hbang t rfl rfl

theorem eq_nil_of_read? {text : List Char} (h : read? text = none) : text = [] := by
  unfold read? at h
  split at h
  · rfl
  · cases h
  · split at h <;> cases h
  all_goals cases h

theorem read?_cons {c : Char} {cs : List Char}
    (slash : c = '/' → cs.head? ≠ some '/' ∧ cs.head? ≠ some '*')
    (equal : c = '=' → cs.head? ≠ some '>' ∧ ¬ ['=', '='] <+: cs)
    (bang : c = '!' → ¬ ['=', '='] <+: cs) : read? (c :: cs) = some (readPlain c cs) := by
  rw [read?]
  · rintro t rfl rfl
    exact (slash rfl).1 rfl
  · rintro t rfl rfl
    exact (slash rfl).2 rfl
  · rintro t rfl rfl
    exact (equal rfl).2 ⟨t, rfl⟩
  · rintro t rfl rfl
    exact bang rfl ⟨t, rfl⟩
  · rintro t rfl rfl
    exact (equal rfl).1 rfl

theorem read?_wordPart {c : Char} {cs : List Char} (h : isWordPart c) :
    read? (c :: cs) = some (readPlain c cs) := by
  refine read?_cons ?_ ?_ ?_ <;> rintro rfl <;> exact absurd h (by decide)

theorem takeWhile_append_stop {p : Char → Bool} {cs rest : List Char} (all : ∀ c ∈ cs, p c)
    (stop : ∀ c ∈ rest.head?, p c = false) :
    (cs ++ rest).takeWhile p = cs ∧ (cs ++ rest).dropWhile p = rest := by
  have hstop : rest.takeWhile p = [] ∧ rest.dropWhile p = rest := by
    cases rest with
    | nil => simp
    | cons c rest => simp [stop c rfl]
  rw [List.takeWhile_append_of_pos all, List.dropWhile_append_of_pos all, hstop.1, hstop.2]
  simp

theorem read?_append {l : Lexeme} {rest : List Char} (h : l.Stands rest) :
    read? (l.source ++ rest) = some (.lexeme l rest) := by
  cases l with
  | lineComment text =>
    obtain ⟨⟨body, rfl⟩, hline, hstop⟩ := h
    have hbody : ∀ c ∈ body, (decide (c ≠ '\n')) = true := by
      intro c hc
      have hne : c ≠ '\n' := by
        rintro rfl
        exact hline (by simp [hc])
      simpa using hne
    have hrest : ∀ c ∈ rest.head?, (decide (c ≠ '\n')) = false := by
      intro c hc
      simpa using hstop c hc
    obtain ⟨htake, hdrop⟩ := takeWhile_append_stop hbody hrest
    simp only [Lexeme.source, List.cons_append, read?, htake, hdrop]
  | blockComment text =>
    obtain ⟨body, rfl, hbody⟩ := h
    have hread := readComment?_append hbody rest
    simp only [Lexeme.source, List.cons_append, read?, hread]
  | literal quote items =>
    obtain ⟨hq, hitems⟩ := h
    have hread := readItems?_append hq hitems rest
    have hplain : read? (quote :: (items.flatMap Item.raw ++ quote :: rest)) =
        some (readPlain quote (items.flatMap Item.raw ++ quote :: rest)) := by
      refine read?_cons ?_ ?_ ?_ <;> rintro rfl <;> exact absurd hq (by decide)
    simp only [Lexeme.source, List.cons_append, List.append_assoc, List.nil_append] at hplain ⊢
    rw [hplain]
    simp [readPlain, hq, hread]
  | opening bracket =>
    have hcases := eq_of_isOpening h
    rcases hcases with rfl | rfl | rfl <;> rfl
  | closing bracket =>
    have hcases := eq_of_isClosing h
    rcases hcases with rfl | rfl | rfl <;> rfl
  | tripleEqual => rfl
  | notDoubleEqual => rfl
  | arrow => rfl
  | word text =>
    obtain ⟨⟨c, cs, rfl, hc⟩, hall, hstop⟩ := h
    obtain ⟨htake, hdrop⟩ :=
      takeWhile_append_stop (fun d hd => hall d (List.mem_cons_of_mem c hd)) hstop
    have hpart : isWordPart c := isWordPart_of_isWordStart hc
    have hclass := class_of_isWordPart hpart
    simp only [Lexeme.source, List.cons_append]
    rw [read?_wordPart hpart]
    simp [readPlain, hclass, hc, htake, hdrop]
  | digits text =>
    obtain ⟨⟨c, cs, rfl, hd, hw⟩, hall, hstop⟩ := h
    obtain ⟨htake, hdrop⟩ :=
      takeWhile_append_stop (fun d hd => hall d (List.mem_cons_of_mem c hd)) hstop
    have hpart : isWordPart c := isWordPart_of_isDigit hd
    have hclass := class_of_isWordPart hpart
    simp only [Lexeme.source, List.cons_append]
    rw [read?_wordPart hpart]
    simp [readPlain, hclass, hd, hw, htake, hdrop]
  | other c =>
    obtain ⟨hclass, slash, equal, bang⟩ := h
    simp only [Lexeme.source, List.singleton_append]
    rw [read?_cons slash equal bang]
    simp [readPlain, hclass]

/-- **The reader follows the lexical rules.** It finds a lexeme at the start of a text exactly if
the lexeme is written there and may stand in front of what follows. -/
theorem read?_eq_lexeme_iff {text rest : List Char} {l : Lexeme} :
    read? text = some (.lexeme l rest) ↔ text = l.source ++ rest ∧ l.Stands rest := by
  constructor
  · intro h
    exact ⟨(append_of_read? h).symm, stands_of_read? h⟩
  · rintro ⟨rfl, h⟩
    exact read?_append h

end PackHost.Source
