import PackHost.Proofs.Source.Mark

/-!
# What a literal denotes

A literal denotes its items, where an escaped quote is that quote. A literal in single quotes is
written again as one literal, which denotes the same (`meaning_kept`).
-/

namespace PackHost.Source

/-- What an item of a literal stands for: an escaped quote is that quote. -/
def Item.meaning : Item → Item
  | .plain c => .plain c
  | .escape c digits => if isQuote c then .plain c else .escape c digits

/-- The text is one closed literal between the given quotes, and it denotes the given items. -/
def Denotes (text : List Char) (quote : Char) (meant : List Item) : Prop :=
  ∃ items, isQuote quote ∧ AreItems quote items ∧ text = quote :: items.flatMap Item.raw ++ [quote] ∧
    meant = items.map Item.meaning

theorem meaning_converted (item : Item) : item.converted.meaning = item.meaning := by
  cases item with
  | plain c =>
    by_cases hc : c = '"'
    · subst hc
      rfl
    · simp [Item.converted, hc]
  | escape c digits =>
    by_cases hc : c = '\''
    · subst hc
      rfl
    · simp [Item.converted, hc]

/-- A literal with exactly one item keeps its single quotes, and any other gets double quotes. -/
theorem exists_converted {items : List Item} (h : AreItems '\'' items) :
    ∃ quote items', (Lexeme.literal '\'' items).converted = .literal quote items' ∧
      quote = (if items.length = 1 then '\'' else '"') ∧ AreItems quote items' ∧
      items'.map Item.meaning = items.map Item.meaning := by
  by_cases hlength : items.length = 1
  · refine ⟨'\'', items, converted_other fun hsingle => hsingle.2 hlength, ?_, h, rfl⟩
    rw [if_pos hlength]
  · refine ⟨'"', _, converted_single hlength, ?_, areItems_converted h, ?_⟩
    · rw [if_neg hlength]
    · rw [List.map_map]
      exact List.map_congr_left fun item _ => meaning_converted item

/-- **A literal in single quotes keeps its meaning**: wherever the pass meets it, it writes exactly
one closed literal in its place, which denotes the same items; single quotes stay around exactly one
item, and become double quotes otherwise. -/
theorem meaning_kept {literal : List Char} {meant : List Item} (h : Denotes literal '\'' meant) :
    ∃ text, Denotes text (if meant.length = 1 then '\'' else '"') meant ∧
      ∀ (s : Scan) (p : Position) (rest : List Char),
        s.run p (literal ++ rest) = (s.write text).run (p.advance literal) rest := by
  obtain ⟨items, -, hitems, rfl, rfl⟩ := h
  obtain ⟨quote, items', hconverted, hquote, hitems', hmeaning⟩ := exists_converted hitems
  rw [List.length_map, ← hquote]
  have hisQuote : isQuote quote := by rw [hquote]; split <;> rfl
  refine ⟨(Lexeme.literal quote items').source, ⟨items', hisQuote, hitems', rfl, hmeaning.symm⟩,
    fun s p rest => ?_⟩
  have hstands : (Lexeme.literal '\'' items).Stands rest := ⟨rfl, hitems⟩
  have hstep : s.step p rest (.literal '\'' items) =
      .ok (s.write (Lexeme.literal quote items').source) := by
    rw [Scan.step_literal rfl, hconverted]
  change s.run p ((Lexeme.literal '\'' items).source ++ rest) = _
  rw [Scan.run_lexeme (read?_append hstands), hstep]
  rfl

/-- The literal `'it\'s "\x4g'`: its items are `i`, `t`, a quote, `s`, a blank, another quote, an
escape with one digit, and `g`. -/
theorem meaning_kept_sample :
    Denotes "'it\\'s \"\\x4g'".toList '\'' [.plain 'i', .plain 't', .plain '\'', .plain 's', .plain ' ',
        .plain '"', .escape 'x' ['4'], .plain 'g'] ∧
      ∃ text, Denotes text '"' [.plain 'i', .plain 't', .plain '\'', .plain 's', .plain ' ', .plain '"',
          .escape 'x' ['4'], .plain 'g'] ∧
        ∀ (s : Scan) (p : Position) (rest : List Char),
          s.run p ("'it\\'s \"\\x4g'".toList ++ rest) =
            (s.write text).run (p.advance "'it\\'s \"\\x4g'".toList) rest := by
  let items : List Item := [.plain 'i', .plain 't', .escape '\'' [], .plain 's', .plain ' ', .plain '"',
    .escape 'x' ['4'], .plain 'g']
  have hdigit : Text.isHexDigit '4' = true := by decide
  have hstop : Text.isHexDigit 'g' = false := by decide
  have hitems : AreItems '\'' items := by
    simp [items, AreItems, escapeWidth, Item.raw, hdigit, hstop]
  have h : Denotes "'it\\'s \"\\x4g'".toList '\'' (items.map Item.meaning) :=
    ⟨items, rfl, hitems, rfl, rfl⟩
  exact ⟨h, meaning_kept h⟩

end PackHost.Source
