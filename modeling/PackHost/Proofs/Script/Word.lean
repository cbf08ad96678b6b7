import PackHost.Script.Lexer

/-!
# Words that are switched off

A word that has no meaning of its own can be called by any script. A word of the language that is
switched off is no token any more, or one that nothing can be done with, so of the words of the
language only those that are left on can be called (`callable_tokens`).
-/

namespace PackHost.Script

def IsOrdinary (s : String) : Prop := keywords.contains s = false ∧ isReserved s = false

instance (s : String) : Decidable (IsOrdinary s) := inferInstanceAs (Decidable (_ ∧ _))

/-- The word can be called where the given words are switched off. -/
def Callable (off : List String) (s : String) : Prop := IsOrdinary s ∨ s ∉ off

/-- Whether the language has a function or a method of the name. -/
def isFunctionWord (s : String) : Bool := functionWords.contains s || methodWords.contains s

namespace Token

/-- What a token names can be called, if a call can be made of the token. -/
def Lets (P : String → Prop) : Token → Prop
  | .name s => P s
  | .reserved s => isFunctionWord s = true → P s
  | _ => True

/-- Names are ordinary words, and other words and signs with a meaning are no functions. -/
def Proper : Token → Prop
  | .name s => IsOrdinary s
  | .keyword s | .sign s => isFunctionWord s = false
  | _ => True

end Token

theorem Token.Lets.imp {P Q : String → Prop} {t : Token} (h : t.Lets P) (hQ : ∀ s, P s → Q s) :
    t.Lets Q := by
  cases t with
  | name s => exact hQ s h
  | reserved s => exact fun hword => hQ s (h hword)
  | _ => trivial

theorem lets_reserved {P : String → Prop} {s : String} (h : isFunctionWord s = false) :
    (Token.reserved s).Lets P :=
  fun hword => absurd (hword.symm.trans h) (by decide)

/-- **A token that was looked at for switching off lets be called what is left on.** -/
theorem lets_switchOff {off : List String} {t : Token} (h : t.Proper) :
    (switchOff off t).Lets (Callable off) := by
  cases t with
  | name s => exact .inl h
  | reserved s =>
    rw [switchOff]
    split
    · trivial
    · next hoff => exact fun _ => .inr (by simpa using hoff)
  | keyword s =>
    rw [switchOff]
    split
    · exact lets_reserved h
    · trivial
  | sign s =>
    rw [switchOff]
    split
    · exact lets_reserved h
    · trivial
  | int | float | char | text | chunk | bad | finish => trivial

/-! ## One token -/

theorem proper_wordToken (s : String) : (wordToken s).Proper := by
  unfold wordToken
  split
  · next h =>
    have hall : ∀ s ∈ keywords, isFunctionWord s = false := by decide
    exact hall s (List.contains_iff_mem.mp h)
  · next hkeyword =>
    split
    · trivial
    · next hreserved => exact ⟨Bool.not_eq_true _ ▸ hkeyword, Bool.not_eq_true _ ▸ hreserved⟩

theorem proper_word (cs : List Char) : (word cs).1.Proper := by
  unfold word
  simp only
  split
  · have hsign : isFunctionWord "_" = false := rfl
    exact hsign
  · split
    · trivial
    · exact proper_wordToken _

theorem proper_signToken (cs : List Char) : (signToken cs).1.Proper := by
  unfold signToken
  split
  · trivial
  · next s hs =>
    split
    · trivial
    · simp only
      split
      · trivial
      · have hall : ∀ s ∈ signs, isFunctionWord s = false := by decide
        exact hall s (List.mem_of_find?_eq_some hs)

theorem proper_number (negative : Bool) (cs : List Char) : (number negative cs).1.Proper := by
  have hdecimal : (decimalNumber negative cs).1.Proper := by
    unfold decimalNumber
    simp only
    split
    · trivial
    · split <;> trivial
  unfold number
  split
  · split
    · unfold basedNumber
      simp only
      split <;> trivial
    · exact hdecimal
  · exact hdecimal

theorem proper_textToken (cs : List Char) : (textToken cs).1.Proper := by
  unfold textToken
  split <;> trivial

theorem proper_charToken (cs : List Char) : (charToken cs).1.Proper := by
  unfold charToken
  split <;> trivial

theorem lets_chunkToken {P : String → Prop} (ds : Depths) (cs : List Char) :
    (chunkToken ds cs).1.1.Lets P := by
  unfold chunkToken
  split <;> trivial

theorem lets_nextToken (off : List String) (operand : Bool) (ds : Depths) (cs : List Char) :
    (nextToken off operand ds cs).1.1.Lets (Callable off) := by
  unfold nextToken
  simp only
  split
  · trivial
  · exact lets_switchOff (proper_textToken _)
  · exact lets_switchOff (proper_charToken _)
  · exact lets_chunkToken _ _
  · split
    · exact lets_switchOff (proper_number _ _)
    · exact lets_switchOff (proper_signToken _)
  · split
    · exact lets_switchOff (proper_number _ _)
    · split
      · exact lets_switchOff (proper_word _)
      · exact lets_switchOff (proper_signToken _)

/-! ## All tokens -/

theorem lets_tokensFrom (off : List String) (n : Nat) (operand : Bool) (ds : Depths)
    (p : Source.Position) (cs : List Char) :
    ∀ t ∈ tokensFrom off n operand ds p cs, t.token.Lets (Callable off) := by
  induction n generalizing operand ds p cs with
  | zero => exact List.forall_mem_singleton.mpr trivial
  | succ n ih =>
    have hnext := lets_nextToken off operand ds (afterSpace cs.length cs)
    unfold tokensFrom
    simp only
    split
    · exact List.forall_mem_singleton.mpr trivial
    · exact List.forall_mem_singleton.mpr trivial
    · next outer _ _ =>
      split
      · have htail := lets_chunkToken (P := Callable off) outer
          (nextToken off operand ds (afterSpace cs.length cs)).2
        split
        · exact List.forall_mem_cons.mpr ⟨trivial, List.forall_mem_singleton.mpr trivial⟩
        · exact List.forall_mem_cons.mpr ⟨trivial, List.forall_mem_cons.mpr ⟨htail, ih _ _ _ _⟩⟩
      · exact List.forall_mem_cons.mpr ⟨trivial, ih _ _ _ _⟩
    · exact List.forall_mem_cons.mpr ⟨hnext, ih _ _ _ _⟩

/-- **Of the tokens of a text, only words that are left on can be called.** -/
theorem callable_tokens (off : List String) (text : String) :
    ∀ t ∈ tokens off text, t.token.Lets (Callable off) :=
  lets_tokensFrom off _ _ _ _ _

end PackHost.Script
